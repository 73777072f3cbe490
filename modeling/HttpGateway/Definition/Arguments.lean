import HttpGateway.Definition.Basic

/-!
# Reading arguments

The forms that the arguments of most predicates and filters take: a text, a list of texts, or two
texts. Arguments that a kind does not know are refused.
-/

namespace HttpGateway.Arguments

/-- A required text. -/
def textField (name : String) : Field String := { name, read := Decoder.text }

/-- A required text that may be given as a number. -/
def scalarField (name : String) : Field String := { name, read := Decoder.scalarText }

/-- A text that may be absent or null. -/
def optionalField (name : String) : Field (Option String) :=
  { name, read := Decoder.optional Decoder.text, fallback := some none }

/-- One text or a list of texts. -/
def listField (name : String) : Field (List String) := { name, read := Decoder.oneOrMany }

/-- The checked entries of an argument record. -/
def entries (fields : List FieldRule) (args : Fields) :
    Except DecodeError (List (String × Json)) :=
  (RecordRule.mk "arguments" fields true).entries .held (.obj args)

variable {α β : Type}

/-- Reads the argument of a kind that takes one. -/
def one (field : Field α) (args : Fields) : Except DecodeError α := do
  let found ← entries [field.rule] args
  field.take found

/-- Reads the arguments of a kind that takes two. -/
def two (first : Field α) (second : Field β) (args : Fields) : Except DecodeError (α × β) := do
  let found ← entries [first.rule, second.rule] args
  .ok (← first.take found, ← second.take found)

end HttpGateway.Arguments
