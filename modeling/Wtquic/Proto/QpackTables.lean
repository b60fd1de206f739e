-- SUMMARY: The QPACK static table and the canonical Huffman decode tables.
import Wtquic.Proto.Varint

namespace Wtquic.Qpack

/-! # QPACK tables

The generated tables of `qpack_tables.inc`. -/

/-- `wtq_qpack_static_table`: name and value of each entry, in index order. -/
def staticTable : List (Bytes × Bytes) :=
  [ (ascii ":authority", ascii ""),
    (ascii ":path", ascii "/"),
    (ascii "age", ascii "0"),
    (ascii "content-disposition", ascii ""),
    (ascii "content-length", ascii "0"),
    (ascii "cookie", ascii ""),
    (ascii "date", ascii ""),
    (ascii "etag", ascii ""),
    (ascii "if-modified-since", ascii ""),
    (ascii "if-none-match", ascii ""),
    (ascii "last-modified", ascii ""),
    (ascii "link", ascii ""),
    (ascii "location", ascii ""),
    (ascii "referer", ascii ""),
    (ascii "set-cookie", ascii ""),
    (ascii ":method", ascii "CONNECT"),
    (ascii ":method", ascii "DELETE"),
    (ascii ":method", ascii "GET"),
    (ascii ":method", ascii "HEAD"),
    (ascii ":method", ascii "OPTIONS"),
    (ascii ":method", ascii "POST"),
    (ascii ":method", ascii "PUT"),
    (ascii ":scheme", ascii "http"),
    (ascii ":scheme", ascii "https"),
    (ascii ":status", ascii "103"),
    (ascii ":status", ascii "200"),
    (ascii ":status", ascii "304"),
    (ascii ":status", ascii "404"),
    (ascii ":status", ascii "503"),
    (ascii "accept", ascii "*/*"),
    (ascii "accept", ascii "application/dns-message"),
    (ascii "accept-encoding", ascii "gzip, deflate, br"),
    (ascii "accept-ranges", ascii "bytes"),
    (ascii "access-control-allow-headers", ascii "cache-control"),
    (ascii "access-control-allow-headers", ascii "content-type"),
    (ascii "access-control-allow-origin", ascii "*"),
    (ascii "cache-control", ascii "max-age=0"),
    (ascii "cache-control", ascii "max-age=2592000"),
    (ascii "cache-control", ascii "max-age=604800"),
    (ascii "cache-control", ascii "no-cache"),
    (ascii "cache-control", ascii "no-store"),
    (ascii "cache-control", ascii "public, max-age=31536000"),
    (ascii "content-encoding", ascii "br"),
    (ascii "content-encoding", ascii "gzip"),
    (ascii "content-type", ascii "application/dns-message"),
    (ascii "content-type", ascii "application/javascript"),
    (ascii "content-type", ascii "application/json"),
    (ascii "content-type", ascii "application/x-www-form-urlencoded"),
    (ascii "content-type", ascii "image/gif"),
    (ascii "content-type", ascii "image/jpeg"),
    (ascii "content-type", ascii "image/png"),
    (ascii "content-type", ascii "text/css"),
    (ascii "content-type", ascii "text/html; charset=utf-8"),
    (ascii "content-type", ascii "text/plain"),
    (ascii "content-type", ascii "text/plain;charset=utf-8"),
    (ascii "range", ascii "bytes=0-"),
    (ascii "strict-transport-security", ascii "max-age=31536000"),
    (ascii "strict-transport-security", ascii "max-age=31536000; includesubdomains"),
    (ascii "strict-transport-security", ascii "max-age=31536000; includesubdomains; preload"),
    (ascii "vary", ascii "accept-encoding"),
    (ascii "vary", ascii "origin"),
    (ascii "x-content-type-options", ascii "nosniff"),
    (ascii "x-xss-protection", ascii "1; mode=block"),
    (ascii ":status", ascii "100"),
    (ascii ":status", ascii "204"),
    (ascii ":status", ascii "206"),
    (ascii ":status", ascii "302"),
    (ascii ":status", ascii "400"),
    (ascii ":status", ascii "403"),
    (ascii ":status", ascii "421"),
    (ascii ":status", ascii "425"),
    (ascii ":status", ascii "500"),
    (ascii "accept-language", ascii ""),
    (ascii "access-control-allow-credentials", ascii "FALSE"),
    (ascii "access-control-allow-credentials", ascii "TRUE"),
    (ascii "access-control-allow-headers", ascii "*"),
    (ascii "access-control-allow-methods", ascii "get"),
    (ascii "access-control-allow-methods", ascii "get, post, options"),
    (ascii "access-control-allow-methods", ascii "options"),
    (ascii "access-control-expose-headers", ascii "content-length"),
    (ascii "access-control-request-headers", ascii "content-type"),
    (ascii "access-control-request-method", ascii "get"),
    (ascii "access-control-request-method", ascii "post"),
    (ascii "alt-svc", ascii "clear"),
    (ascii "authorization", ascii ""),
    (ascii "content-security-policy", ascii "script-src 'none'; object-src 'none'; base-uri 'none'"),
    (ascii "early-data", ascii "1"),
    (ascii "expect-ct", ascii ""),
    (ascii "forwarded", ascii ""),
    (ascii "if-range", ascii ""),
    (ascii "origin", ascii ""),
    (ascii "purpose", ascii "prefetch"),
    (ascii "server", ascii ""),
    (ascii "timing-allow-origin", ascii "*"),
    (ascii "upgrade-insecure-requests", ascii "1"),
    (ascii "user-agent", ascii ""),
    (ascii "x-forwarded-for", ascii ""),
    (ascii "x-frame-options", ascii "deny"),
    (ascii "x-frame-options", ascii "sameorigin") ]

/-- `wtq_huff_symbols`: the symbols ordered by code length, then by code. -/
def huffSymbols : Bytes :=
  [ 0x30, 0x31, 0x32, 0x61, 0x63, 0x65, 0x69, 0x6f, 0x73, 0x74, 0x20, 0x25,
    0x2d, 0x2e, 0x2f, 0x33, 0x34, 0x35, 0x36, 0x37, 0x38, 0x39, 0x3d, 0x41,
    0x5f, 0x62, 0x64, 0x66, 0x67, 0x68, 0x6c, 0x6d, 0x6e, 0x70, 0x72, 0x75,
    0x3a, 0x42, 0x43, 0x44, 0x45, 0x46, 0x47, 0x48, 0x49, 0x4a, 0x4b, 0x4c,
    0x4d, 0x4e, 0x4f, 0x50, 0x51, 0x52, 0x53, 0x54, 0x55, 0x56, 0x57, 0x59,
    0x6a, 0x6b, 0x71, 0x76, 0x77, 0x78, 0x79, 0x7a, 0x26, 0x2a, 0x2c, 0x3b,
    0x58, 0x5a, 0x21, 0x22, 0x28, 0x29, 0x3f, 0x27, 0x2b, 0x7c, 0x23, 0x3e,
    0x00, 0x24, 0x40, 0x5b, 0x5d, 0x7e, 0x5e, 0x7d, 0x3c, 0x60, 0x7b, 0x5c,
    0xc3, 0xd0, 0x80, 0x82, 0x83, 0xa2, 0xb8, 0xc2, 0xe0, 0xe2, 0x99, 0xa1,
    0xa7, 0xac, 0xb0, 0xb1, 0xb3, 0xd1, 0xd8, 0xd9, 0xe3, 0xe5, 0xe6, 0x81,
    0x84, 0x85, 0x86, 0x88, 0x92, 0x9a, 0x9c, 0xa0, 0xa3, 0xa4, 0xa9, 0xaa,
    0xad, 0xb2, 0xb5, 0xb9, 0xba, 0xbb, 0xbd, 0xbe, 0xc4, 0xc6, 0xe4, 0xe8,
    0xe9, 0x01, 0x87, 0x89, 0x8a, 0x8b, 0x8c, 0x8d, 0x8f, 0x93, 0x95, 0x96,
    0x97, 0x98, 0x9b, 0x9d, 0x9e, 0xa5, 0xa6, 0xa8, 0xae, 0xaf, 0xb4, 0xb6,
    0xb7, 0xbc, 0xbf, 0xc5, 0xe7, 0xef, 0x09, 0x8e, 0x90, 0x91, 0x94, 0x9f,
    0xab, 0xce, 0xd7, 0xe1, 0xec, 0xed, 0xc7, 0xcf, 0xea, 0xeb, 0xc0, 0xc1,
    0xc8, 0xc9, 0xca, 0xcd, 0xd2, 0xd5, 0xda, 0xdb, 0xee, 0xf0, 0xf2, 0xf3,
    0xff, 0xcb, 0xcc, 0xd3, 0xd4, 0xd6, 0xdd, 0xde, 0xdf, 0xf1, 0xf4, 0xf5,
    0xf6, 0xf7, 0xf8, 0xfa, 0xfb, 0xfc, 0xfd, 0xfe, 0x02, 0x03, 0x04, 0x05,
    0x06, 0x07, 0x08, 0x0b, 0x0c, 0x0e, 0x0f, 0x10, 0x11, 0x12, 0x13, 0x14,
    0x15, 0x17, 0x18, 0x19, 0x1a, 0x1b, 0x1c, 0x1d, 0x1e, 0x1f, 0x7f, 0xdc,
    0xf9, 0x0a, 0x0d, 0x16 ]

/-- One row of `wtq_huff_lengths`. -/
structure HuffRow where
  bits : Nat
  firstCode : Nat
  firstIndex : Nat
  count : Nat
  deriving DecidableEq, Repr

/-- `wtq_huff_lengths`, ascending by code length. -/
def huffLengths : List HuffRow :=
  [ ⟨5, 0x00000000, 0, 10⟩,
    ⟨6, 0x00000014, 10, 26⟩,
    ⟨7, 0x0000005c, 36, 32⟩,
    ⟨8, 0x000000f8, 68, 6⟩,
    ⟨10, 0x000003f8, 74, 5⟩,
    ⟨11, 0x000007fa, 79, 3⟩,
    ⟨12, 0x00000ffa, 82, 2⟩,
    ⟨13, 0x00001ff8, 84, 6⟩,
    ⟨14, 0x00003ffc, 90, 2⟩,
    ⟨15, 0x00007ffc, 92, 3⟩,
    ⟨19, 0x0007fff0, 95, 3⟩,
    ⟨20, 0x000fffe6, 98, 8⟩,
    ⟨21, 0x001fffdc, 106, 13⟩,
    ⟨22, 0x003fffd2, 119, 26⟩,
    ⟨23, 0x007fffd8, 145, 29⟩,
    ⟨24, 0x00ffffea, 174, 12⟩,
    ⟨25, 0x01ffffec, 186, 4⟩,
    ⟨26, 0x03ffffe0, 190, 15⟩,
    ⟨27, 0x07ffffde, 205, 19⟩,
    ⟨28, 0x0fffffe2, 224, 29⟩,
    ⟨30, 0x3ffffffc, 253, 3⟩ ]

/-- `WTQ_HUFF_EOS_BITS`. -/
def huffEosBits : Nat := 30

end Wtquic.Qpack
