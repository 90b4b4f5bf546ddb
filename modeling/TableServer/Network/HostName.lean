import TableServer.Network.Address
import TableServer.Text.Case
import TableServer.Text.Punycode

namespace TableServer

/-- Why a host names nothing. -/
inductive HostFault
  | nul
  | label
  deriving DecidableEq, Repr

def HostFault.message : HostFault → String
  | nul => "embedded null character"
  | label => "encoding with 'idna' codec failed (UnicodeError: label empty or too long)"

/-- What a host names. -/
inductive Destination
  | address (a : Address)
  | name (encoded : String)
  deriving DecidableEq, Repr

namespace HostName

/-- Characters that are left out of labels. -/
def ignoredRanges : Ranges := [
  (0xad, 0xad), (0x34f, 0x34f), (0x1806, 0x1806), (0x180b, 0x180d), (0x200b, 0x200d),
  (0x2060, 0x2060), (0xfe00, 0xfe0f), (0xfeff, 0xfeff)]

/-- Characters that no label has: controls, and those that are for no text. -/
def refusedRanges : Ranges := [
  (0x80, 0x9f), (0x6dd, 0x6dd), (0x70f, 0x70f), (0x1680, 0x1680), (0x180e, 0x180e),
  (0x200e, 0x200f), (0x2028, 0x202e), (0x2061, 0x2063), (0x206a, 0x206f), (0x2ff0, 0x2ffb),
  (0xe000, 0xf8ff), (0xfdd0, 0xfdef), (0xfff9, 0xffff), (0x1d173, 0x1d17a), (0xe0001, 0xe0001),
  (0xe0020, 0xe007f), (0xf0000, 0x10ffff)]

/-- Spaces of other widths than that of ASCII. -/
def wideSpaces : Ranges := [
  (0xa0, 0xa0), (0x2000, 0x200a), (0x202f, 0x202f), (0x205f, 0x205f), (0x3000, 0x3000)]

/-- The wide forms of ASCII are taken for ASCII. -/
def narrow (c : Char) : Char :=
  if 0xff01 ≤ c.toNat ∧ c.toNat ≤ 0xff5e then Char.ofNat (c.toNat - 0xfee0)
  else if wideSpaces.holds c then ' '
  else c

def isAscii (cs : List Char) : Bool := cs.all fun c => c.toNat < 128

/-- Small letters with more than one form have one in a label. -/
def fold (c : Char) : List Char := if c = 'ß' then ['s', 's'] else if c = 'ς' then ['σ'] else [c]

/-- A label that is not in ASCII, in the form in which labels are compared. -/
def prepare (label : List Char) : List Char :=
  let label := (label.filter fun c => !ignoredRanges.holds c).map narrow
  (lowercase (String.ofList label)).toList.flatMap fold

/-- The start of labels that are encoded. -/
def encodedMark : List Char := "xn--".toList

def checkLength (label : List Char) : Except HostFault (List Char) :=
  if label ≠ [] ∧ label.length < 64 then .ok label else .error .label

/-- A label as name servers know it. One that is not in ASCII is encoded in it. -/
def encodeLabel (label : List Char) : Except HostFault (List Char) :=
  if isAscii label then checkLength label
  else
    let label := prepare label
    if label.any refusedRanges.holds then .error .label
    else if isAscii label then checkLength label
    else if encodedMark.isPrefixOf label then .error .label
    else checkLength (encodedMark ++ Punycode.encode label)

/-- The points that separate labels. -/
def isPoint (c : Char) : Bool := c = '.' || c = '\u3002' || c = '\uff0e' || c = '\uff61'

def joinLabels (labels : List (List Char)) : List Char := ['.'].intercalate labels

/-- A name in ASCII. Only its last label may be empty. -/
def encode (host : List Char) : Except HostFault (List Char) := do
  let labels := splitMarks isPoint host
  let last := labels.getLast?.getD []
  let first ← labels.dropLast.mapM encodeLabel
  let last ← if last = [] then .ok [] else encodeLabel last
  .ok (joinLabels (first ++ [last]))

def isNameChar (c : Char) : Bool := c.isAlphanum || c = '-' || c = '_' || c = '.'

/-- Whether a name server can know a name. A point at its end does not count for its length. -/
def isAskable (name : List Char) : Bool :=
  let counted := if name.getLast? = some '.' then name.dropLast else name
  !name.isEmpty && name.all isNameChar && name.head? != some '-' && counted.length ≤ 253

/-- The words for a name that there cannot be. -/
def unknown : String := "[Errno -2] Name or service not known"

/-- The words for a name that no server can be asked for. -/
def unanswered : String := "[Errno -3] Temporary failure in name resolution"

end HostName

/-- What a host names: an address in digits, or a name made of labels. -/
def Destination.ofHost (host : String) : Except HostFault Destination :=
  if host.toList.contains '\x00' then .error .nul
  else match Address.ofPlain? host with
    | some a => .ok (.address a)
    | none => do
      let name ← HostName.encode host.toList
      match Address.ofShort? name with
      | some a => .ok (.address a)
      | none => .ok (.name (String.ofList name))

end TableServer
