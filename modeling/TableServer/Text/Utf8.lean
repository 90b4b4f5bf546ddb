namespace TableServer

abbrev Bytes := List UInt8

namespace Utf8

/-- Text in UTF-8. -/
def encode (cs : List Char) : Bytes := cs.flatMap String.utf8EncodeChar

/-- The six bits of a continuation byte. -/
def continuation? (b : UInt8) : Option Nat :=
  if 0x80 ≤ b.toNat ∧ b.toNat < 0xc0 then some (b.toNat - 0x80) else none

/-- A scalar value written no longer than needed: `least` is the first one of its length. -/
def scalar? (least value : Nat) : Option Char :=
  if least ≤ value ∧ value.isValidChar then some (Char.ofNat value) else none

/-- Reads a whole byte string; overlong forms, surrogates and values beyond U+10FFFF are refused. -/
def decode : Bytes → Option (List Char)
  | [] => some []
  | a :: rest =>
    if a.toNat < 0x80 then do
      let cs ← decode rest
      some (Char.ofNat a.toNat :: cs)
    else if a.toNat < 0xc0 then none
    else match rest with
      | [] => none
      | b :: rest => do
        let b ← continuation? b
        if a.toNat < 0xe0 then
          let c ← scalar? 0x80 ((a.toNat - 0xc0) * 0x40 + b)
          let cs ← decode rest
          some (c :: cs)
        else match rest with
          | [] => none
          | c :: rest => do
            let c ← continuation? c
            if a.toNat < 0xf0 then
              let c ← scalar? 0x800 ((a.toNat - 0xe0) * 0x1000 + b * 0x40 + c)
              let cs ← decode rest
              some (c :: cs)
            else match rest with
              | [] => none
              | d :: rest => do
                let d ← continuation? d
                let c ← scalar? 0x10000
                  ((a.toNat - 0xf0) * 0x40000 + b * 0x1000 + c * 0x40 + d)
                let cs ← decode rest
                some (c :: cs)

end Utf8

end TableServer
