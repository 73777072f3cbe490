import HttpGateway.Text.Pieces
import HttpGateway.Text.Number

/-!
# Response statuses

A status is a number of three digits. The registered ones have a reason phrase, and a status may be
given in a configuration by its number or by its phrase.
-/

namespace HttpGateway

/-- A response status: a number from 100 to 999. -/
structure Status where
  code : Nat
  lower : 100 ≤ code := by decide
  upper : code ≤ 999 := by decide
  deriving DecidableEq, Repr

namespace Status

instance : Inhabited Status := ⟨⟨200, by decide, by decide⟩⟩

/-- The status with this number, if it has three digits. -/
def ofCode? (n : Nat) : Option Status :=
  if h : 100 ≤ n ∧ n ≤ 999 then some ⟨n, h.1, h.2⟩ else none

def ok : Status := ⟨200, by decide, by decide⟩

def badRequest : Status := ⟨400, by decide, by decide⟩

def notFound : Status := ⟨404, by decide, by decide⟩

def payloadTooLarge : Status := ⟨413, by decide, by decide⟩

def tooManyRequests : Status := ⟨429, by decide, by decide⟩

def forbidden : Status := ⟨403, by decide, by decide⟩

def internalServerError : Status := ⟨500, by decide, by decide⟩

def badGateway : Status := ⟨502, by decide, by decide⟩

def serviceUnavailable : Status := ⟨503, by decide, by decide⟩

def gatewayTimeout : Status := ⟨504, by decide, by decide⟩

/-- The registered statuses with their reason phrases. -/
def registered : List (Nat × String) :=
  [(100, "Continue"), (101, "Switching Protocols"), (102, "Processing"), (103, "Early Hints"),
    (200, "OK"), (201, "Created"), (202, "Accepted"), (203, "Non Authoritative Information"),
    (204, "No Content"), (205, "Reset Content"), (206, "Partial Content"), (207, "Multi-Status"),
    (208, "Already Reported"), (226, "IM Used"), (300, "Multiple Choices"),
    (301, "Moved Permanently"), (302, "Found"), (303, "See Other"), (304, "Not Modified"),
    (305, "Use Proxy"), (307, "Temporary Redirect"), (308, "Permanent Redirect"),
    (400, "Bad Request"), (401, "Unauthorized"), (402, "Payment Required"), (403, "Forbidden"),
    (404, "Not Found"), (405, "Method Not Allowed"), (406, "Not Acceptable"),
    (407, "Proxy Authentication Required"), (408, "Request Timeout"), (409, "Conflict"),
    (410, "Gone"), (411, "Length Required"), (412, "Precondition Failed"),
    (413, "Payload Too Large"), (414, "URI Too Long"), (415, "Unsupported Media Type"),
    (416, "Range Not Satisfiable"), (417, "Expectation Failed"), (418, "I'm a teapot"),
    (421, "Misdirected Request"), (422, "Unprocessable Entity"), (423, "Locked"),
    (424, "Failed Dependency"), (425, "Too Early"), (426, "Upgrade Required"),
    (428, "Precondition Required"), (429, "Too Many Requests"),
    (431, "Request Header Fields Too Large"), (451, "Unavailable For Legal Reasons"),
    (500, "Internal Server Error"), (501, "Not Implemented"), (502, "Bad Gateway"),
    (503, "Service Unavailable"), (504, "Gateway Timeout"), (505, "HTTP Version Not Supported"),
    (506, "Variant Also Negotiates"), (507, "Insufficient Storage"), (508, "Loop Detected"),
    (510, "Not Extended"), (511, "Network Authentication Required")]

/-- The reason phrase of a registered status. -/
def reason? (s : Status) : Option String := registered.lookup s.code

/-- The reason phrase as a response body. -/
def reasonText (s : Status) : String := s.reason?.getD "Gateway Error"

/-- The classes of statuses by their first digit. -/
inductive Series where
  | informational
  | success
  | redirection
  | clientError
  | serverError
  deriving DecidableEq, Repr

/-- The name of a class. -/
def Series.name : Series → String
  | .informational => "Informational"
  | .success => "Successful"
  | .redirection => "Redirection"
  | .clientError => "ClientError"
  | .serverError => "ServerError"

/-- The class of a status; numbers from 600 on have none. -/
def series? (s : Status) : Option Series :=
  match s.code / 100 with
  | 1 => some .informational
  | 2 => some .success
  | 3 => some .redirection
  | 4 => some .clientError
  | 5 => some .serverError
  | _ => none

/-- The complaint about a number that is no status. -/
def invalidMessage : String := "invalid status code"

/-- Why a text names no status. -/
inductive NameError where
  | badCode (text : String)
  | unknown (text : String)
  deriving DecidableEq, Repr

def NameError.message : NameError → String
  | .badCode text => "status \x60" ++ text ++ "\x60: " ++ invalidMessage
  | .unknown text => "unknown status \x60" ++ text ++ "\x60"

/-- The largest number a status text is read as before it is looked up by name. -/
def largestNumber : Nat := 65535

/-- Reads a status from its number, or from its reason phrase in either case of letters. In the
text an underscore stands for a blank, and so does a hyphen of the phrase. -/
def parse (text : String) : Except NameError Status :=
  let wanted := trimText text
  match Text.natural largestNumber wanted.toList with
  | .ok n => match ofCode? n with
    | some s => .ok s
    | none => .error (.badCode wanted)
  | .error _ =>
    let key := wanted.toList.map fun c => if c = '_' then ' ' else c
    let named := registered.find? fun (_, phrase) =>
      Text.sameIgnoringCase (phrase.toList.map fun c => if c = '-' then ' ' else c) key
    match named.bind fun (code, _) => ofCode? code with
    | some s => .ok s
    | none => .error (.unknown wanted)

end Status

end HttpGateway
