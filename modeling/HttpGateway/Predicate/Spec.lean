import HttpGateway.Definition.Arguments

/-!
# Kinds of predicates

The kinds of predicates a definition may name, how each takes its arguments, and the arguments once
they have been read.
-/

namespace HttpGateway

/-- The kinds of predicates. -/
inductive PredicateKind where
  | path
  | host
  | method
  | header
  | cookie
  | query
  | remoteAddress
  | before
  | after
  | between
  deriving DecidableEq, Repr

/-- The arguments of a predicate. -/
inductive PredicateSpec where
  | path (patterns : List String)
  | host (patterns : List String)
  | method (methods : List String)
  | header (name : String) (regexp : Option String)
  | cookie (name regexp : String)
  | query (param : String) (regexp : Option String)
  | remoteAddress (sources : List String)
  | before (datetime : String)
  | after (datetime : String)
  | between (start stop : String)
  deriving DecidableEq, Repr

namespace PredicateKind

/-- All kinds, in the order in which they are listed. -/
def all : List PredicateKind :=
  [.path, .host, .method, .header, .cookie, .query, .remoteAddress, .before, .after, .between]

/-- The name of a kind. -/
def name : PredicateKind → String
  | .path => "Path"
  | .host => "Host"
  | .method => "Method"
  | .header => "Header"
  | .cookie => "Cookie"
  | .query => "Query"
  | .remoteAddress => "RemoteAddr"
  | .before => "Before"
  | .after => "After"
  | .between => "Between"

/-- How the values of a shortcut become arguments. -/
def layout : PredicateKind → ArgumentLayout
  | .path => .list "patterns"
  | .host => .list "patterns"
  | .method => .list "methods"
  | .header => .fields ["header", "regexp"]
  | .cookie => .fields ["name", "regexp"]
  | .query => .fields ["param", "regexp"]
  | .remoteAddress => .list "sources"
  | .before => .fields ["datetime"]
  | .after => .fields ["datetime"]
  | .between => .fields ["start", "end"]

/-- The kind of a name. -/
def ofName? (s : String) : Option PredicateKind := all.find? fun k => k.name = s

end PredicateKind

namespace PredicateSpec

open Arguments

/-- Reads the named arguments of a predicate. -/
def ofArgs (kind : PredicateKind) (args : Fields) : Except DecodeError PredicateSpec :=
  match kind with
  | .path => (one (listField "patterns") args).map .path
  | .host => (one (listField "patterns") args).map .host
  | .method => (one (listField "methods") args).map .method
  | .header => (two (textField "header") (optionalField "regexp") args).map fun (n, r) =>
    .header n r
  | .cookie => (two (textField "name") (textField "regexp") args).map fun (n, r) => .cookie n r
  | .query => (two (textField "param") (optionalField "regexp") args).map fun (p, r) => .query p r
  | .remoteAddress => (one (listField "sources") args).map .remoteAddress
  | .before => (one (textField "datetime") args).map .before
  | .after => (one (textField "datetime") args).map .after
  | .between => (two (textField "start") (textField "end") args).map fun (s, e) => .between s e

/-- Reads the arguments of a defined predicate. -/
def ofDefinition (d : PredicateDefinition) : Except DefinitionError PredicateSpec :=
  match PredicateKind.ofName? d.name with
  | none => .error (.unknownPredicate d.name)
  | some kind => match kind.layout.nameArguments d.args with
    | .error fault => .error (.invalidArguments d.name fault)
    | .ok args => match ofArgs kind args with
      | .error cause => .error (.invalidArguments d.name (.shape cause))
      | .ok spec => .ok spec

end PredicateSpec

end HttpGateway
