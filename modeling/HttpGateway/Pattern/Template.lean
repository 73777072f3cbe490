import HttpGateway.Json.Decode

/-!
# Path templates

A path with variables in braces. Each variable is replaced by its value, without the slashes at the
start of the value.
-/

namespace HttpGateway

/-- A part of a template. -/
inductive TemplatePart where
  | literal (text : String)
  | variable (name : String)
  deriving DecidableEq, Repr

/-- A template is a list of parts. -/
structure PathTemplate where
  parts : List TemplatePart
  deriving DecidableEq, Repr

/-- Why a text is no template. -/
inductive TemplateError where
  | withoutSlash (template : String)
  | unclosed (template : String)
  | emptyName (template : String)
  | unbalanced (template : String)
  deriving DecidableEq, Repr

/-- The wording of each cause. -/
def TemplateError.message : TemplateError → String
  | .withoutSlash t => "template " ++ ticked t ++ " must start with " ++ ticked "/"
  | .unclosed t => "unclosed variable in " ++ ticked t
  | .emptyName t => "empty variable in " ++ ticked t
  | .unbalanced t => "unbalanced " ++ ticked "\x7d" ++ " in " ++ ticked t

namespace PathTemplate

/-- A literal part, or none if the text is empty. -/
def literalPart (text : List Char) : List TemplatePart :=
  if text.isEmpty then [] else [.literal (String.ofList text)]

/-- Reads the parts of a template. What stands before an opening brace is not looked into; a closing
brace after the last variable is refused. -/
def scan (template : String) : (fuel : Nat) → List Char → Except TemplateError (List TemplatePart)
  | 0, _ => .ok []
  | fuel + 1, s =>
    match Text.cut '\x7b' s with
    | none => if s.contains '\x7d' then .error (.unbalanced template) else .ok (literalPart s)
    | some (before, after) => match Text.cut '\x7d' after with
      | none => .error (.unclosed template)
      | some (name, rest) =>
        if name.isEmpty then .error (.emptyName template)
        else (scan template fuel rest).map fun parts =>
          literalPart before ++ .variable (String.ofList name) :: parts

/-- Reads a template. -/
def ofText (text : String) : Except TemplateError PathTemplate :=
  (scan text (text.toList.length + 1) text.toList).map PathTemplate.mk

/-- Reads a template that starts with a slash. -/
def parse (text : String) : Except TemplateError PathTemplate :=
  if text.toList.head? = some '/' then ofText text else .error (.withoutSlash text)

/-- The text of a part, if its variable has a value. -/
def expandPart (value? : String → Option String) : TemplatePart → Option String
  | .literal text => some text
  | .variable name => (value? name).map fun v =>
    String.ofList (v.toList.dropWhile (· = '/'))

/-- The path that a template stands for, if all its variables have values. -/
def expand (t : PathTemplate) (value? : String → Option String) : Option String :=
  (t.parts.mapM (expandPart value?)).map String.join

end PathTemplate

end HttpGateway
