import TableServer.Store.Template.Subject

namespace TableServer.Template

/-- What can be wrong with a template: with its own text, with what its fields ask for, and with how they
want it laid out. -/
inductive Fault
  | openingAlone
  | closingAlone
  | openingInName
  | missingConversion
  | afterConversion
  | openLayout
  | openField
  | unknownConversion (c : Char)
  | tooDeep
  | positional (index : Nat)
  | unknownName (name : String)
  | emptyAttribute
  | afterIndex
  | openIndex
  | noAttribute (miss : Subject.Miss)
  | noItem (cause : Subject.NoItem)
  | noLayout (k : Kind)
  | tooManyDigits
  | missingPrecision
  | bothSeparators
  | separator (mark kind : Char)
  | malformedLayout (layout : String) (k : Kind)
  | unknownKind (kind : Char) (k : Kind)
  | space
  | sign
  | negativeZero
  | alternate
  | signAlignment
  | numberPrecision
  | numberNegativeZero
  | characterSign
  | characterAlternate
  | characterRange
  | outOfMemory
  deriving DecidableEq, Repr

/-- A character as a message shows it, with its number where it has no visible form. -/
def shownChar (last : Nat) (c : Char) : String :=
  if 32 < c.toNat ∧ c.toNat ≤ last then String.singleton c
  else "\\x" ++ String.ofList (Nat.toDigits 16 c.toNat)

namespace Subject

def Miss.message : Miss → String
  | unknown s name => s.owner "type object" ++ s!" has no attribute '{name}'"
  | absent name => name

def NoItem.message : NoItem → String
  | outOfRange (.series _) => "tuple index out of range"
  | outOfRange _ => "string index out of range"
  | byName (.series _) => "tuple indices must be integers or slices, not str"
  | byName _ => "string indices must be integers, not 'str'"
  | missing key => shownItem quoted key
  | noItems s => s.owner "type" ++ " is not subscriptable"
  | closed s => s.quotedBy quoted ++ " is not a generic class"

end Subject

def Fault.message : Fault → String
  | openingAlone => "Single '\x7b' encountered in format string"
  | closingAlone => "Single '\x7d' encountered in format string"
  | openingInName => "unexpected '\x7b' in field name"
  | missingConversion => "end of string while looking for conversion specifier"
  | afterConversion => "expected ':' after conversion specifier"
  | openLayout => "unmatched '\x7b' in format spec"
  | openField => "expected '\x7d' before end of string"
  | unknownConversion c => "Unknown conversion specifier " ++ shownChar 126 c
  | tooDeep => "Max string recursion exceeded"
  | positional index => s!"Replacement index {index} out of range for positional args tuple"
  | unknownName name => quoted name
  | emptyAttribute => "Empty attribute in format string"
  | afterIndex => "Only '.' or '[' may follow ']' in format field specifier"
  | openIndex => "Missing ']' in format string"
  | noAttribute miss => miss.message
  | noItem cause => cause.message
  | noLayout k => s!"unsupported format string passed to {k.fullName}.__format__"
  | tooManyDigits => "Too many decimal digits in format string"
  | missingPrecision => "Format specifier missing precision"
  | bothSeparators => "Cannot specify both ',' and '_'."
  | separator mark kind => s!"Cannot specify '{mark}' with '{shownChar 127 kind}'."
  | malformedLayout layout k => s!"Invalid format specifier '{layout}' for object of type '{k.name}'"
  | unknownKind kind k =>
    s!"Unknown format code '{shownChar 127 kind}' for object of type '{k.name}'"
  | space => "Space not allowed in string format specifier"
  | sign => "Sign not allowed in string format specifier"
  | negativeZero => "Negative zero coercion (z) not allowed in string format specifier"
  | alternate => "Alternate form (#) not allowed in string format specifier"
  | signAlignment => "'=' alignment not allowed in string format specifier"
  | numberPrecision => "Precision not allowed in integer format specifier"
  | numberNegativeZero => "Negative zero coercion (z) not allowed in integer format specifier"
  | characterSign => "Sign not allowed with integer format specifier 'c'"
  | characterAlternate => "Alternate form (#) not allowed with integer format specifier 'c'"
  | characterRange => "%c arg not in range(0x110000)"
  | outOfMemory => ""

end TableServer.Template
