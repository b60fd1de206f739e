-- SUMMARY: The flush counters over every order of events, other streams' events inside refused sends included.
import Wtquic.Msquic.FlushNested

namespace Wtquic.Msquic

open Finset (range)

/-! # Flush counters

What the counters of a connection and of its streams say, whatever has happened. -/

variable {x x' : Sends}

namespace Counted

variable {d : Driver} {out : List SendRec}

/-- Every record is counted on one stream. -/
theorem sum_countP (p : SendRec → Bool) {n : Nat} (hlive : ∀ r ∈ out, r.ds < n) :
    ∑ s ∈ range n, out.countP (fun r => p r && r.ds == s) = out.countP p := by
  induction out with
  | nil => simp
  | cons r out ih =>
    have hone : ∑ s ∈ range n, (if p r && r.ds == s then 1 else 0) = if p r then 1 else 0 := by
      cases hp : p r with
      | false => simp
      | true =>
        have hmem := Finset.mem_range.mpr (hlive r List.mem_cons_self)
        simp only [Bool.true_and, beq_iff_eq, if_true]
        rw [Finset.sum_ite_eq, if_pos hmem]
    simp only [List.countP_cons]
    rw [Finset.sum_add_distrib, hone, ih fun q hq => hlive q (List.mem_cons_of_mem r hq)]

theorem total_sends (hc : Counted out d) : d.total (·.flushSends) = out.countP (·.flushBytes) := by
  rw [← sum_countP (·.flushBytes) fun r hr => (hc.live r hr).1]
  exact Finset.sum_congr rfl fun s _ => hc.streamSends s

/-- A flag is counted once for every stream that has it. -/
theorem total_flag (g : Dstream → Bool) :
    d.total (fun e => (g e).toNat) = ((range d.nextDs).filter fun s => g (d.stream s)).card := by
  rw [Finset.card_filter]
  refine Finset.sum_congr rfl fun s _ => ?_
  cases hg : g (d.stream s) <;> simp [hg]

/-- A stream without references has no record out. -/
theorem idle (hc : Counted out d) {s : Nat} (hrefs : (d.stream s).sendRefs = 0) :
    (d.stream s).flushSends = 0 ∧ (d.stream s).flushRequiredSends = 0 := by
  have hnone : ∀ r ∈ out, r.ds ≠ s := by
    rw [hc.refs, List.countP_eq_zero] at hrefs
    exact fun r hr => by simpa using hrefs r hr
  constructor
  · rw [hc.streamSends, List.countP_eq_zero]
    intro r hr
    simp [hnone r hr]
  · rw [hc.required, List.countP_eq_zero]
    intro r hr
    simp [hnone r hr]

end Counted

namespace Sends

/-- The flush counters, over every order of sends, completions, cancellations, resets, peer STOPs,
shutdowns and retirements, whatever happens to other streams inside a refused send. A retired
stream has nothing pending, unless MsQuic accepted a FIN of it after its shutdown had completed. -/
theorem flush_counters (h : x.Reachable) :
    x.driver.flushSends = x.driver.total (·.flushSends) ∧
      x.driver.flushSends = x.outstanding.countP (·.flushBytes) ∧
      (∀ s, (x.driver.stream s).flushSends =
        x.outstanding.countP fun r => r.flushBytes && r.ds == s) ∧
      (∀ s, (x.driver.stream s).flushRequiredSends = x.outstanding.countP fun r =>
        r.flushBytes && r.ds == s && r.flushEpoch == (x.driver.stream s).flushEpoch) ∧
      x.driver.flushFins =
        ((range x.driver.nextDs).filter fun s => (x.driver.stream s).flushFin).card ∧
      x.driver.flushSettlements =
        ((range x.driver.nextDs).filter fun s => (x.driver.stream s).flushSettling).card ∧
      (∀ s, (x.driver.stream s).collected →
        (x.driver.stream s).flushSends = 0 ∧ (x.driver.stream s).flushRequiredSends = 0 ∧
          (x.driver.stream s).flushSettling = false ∧
          ((x.driver.stream s).flushFin → LateFin s x.driver.log)) ∧
      ∀ x', x.Step x' → NoWrap x.driver x'.driver := by
  have hi := h.inv
  have hc := hi.counted
  refine ⟨?_, hc.sends, hc.streamSends, hc.required, ?_, ?_, ?_, fun x' => hi.noWrap⟩
  · rw [hc.total_sends]
    exact hc.sends
  · rw [hc.fins]
    exact Counted.total_flag (·.flushFin)
  · rw [hc.settlements]
    exact Counted.total_flag (·.flushSettling)
  · intro s hcol
    obtain ⟨hgone, hrefs, hset, -⟩ := hi.retired s hcol
    obtain ⟨hsends, hreq⟩ := hc.idle hrefs
    refine ⟨hsends, hreq, hset, fun hf => ?_⟩
    obtain hlate | ⟨sub, hsub, rfl, -⟩ := hi.late s hgone hf
    · exact hlate
    · -- a stream is not retired while one of its sends is being refused
      rw [(hi.subs sub hsub).2.1] at hcol
      cases hcol

/-- A send on stream 1 that is about to be refused, inside of which the peer stops stream 0. -/
def stoppedInside : Sends :=
  let d := (({} : Driver).apply (.opened true true false true true)).apply
    (.opened true true false true true)
  let x : Sends := { driver := d.apply (.send 0 5 true true true) }
  let x := x.refuse
    { id := 1, ds := 1, gather := true, flushBytes := true, flushFin := true, flushEpoch := 0, bytes := 7 }
  { x with driver := x.driver.apply (.peerReceiveAborted 0 true) }

theorem stoppedInside_reachable : stoppedInside.Reachable := by
  have hfirst := Reachable.init.step (.event (.opened true true false true true) rfl nofun)
  have hsecond := hfirst.step (.event (.opened true true false true true) rfl nofun)
  have hsent := hsecond.step (.event (.send 0 5 true true true) rfl nofun)
  have hrefuse := hsent.step (.refuse
    { id := 1, ds := 1, gather := true, flushBytes := true, flushFin := true, flushEpoch := 0, bytes := 7 }
    (by decide) rfl nofun rfl)
  refine hrefuse.step (.event (.peerReceiveAborted 0 true) rfl ?_)
  rintro s ⟨⟩
  decide

theorem stoppedInside_counters :
    stoppedInside.driver.flushSends = stoppedInside.driver.total (·.flushSends) ∧
      stoppedInside.outstanding.length = 2 ∧ (stoppedInside.driver.stream 0).flushSettling := by
  exact ⟨(flush_counters stoppedInside_reachable).1, rfl, rfl⟩

end Sends
end Wtquic.Msquic
