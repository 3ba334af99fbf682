/-
Switchboard/Http.lean

What the service answers to plain requests: its counts, a word that it is
alive, and to a request for a socket that it cannot grant, what that lacks.
-/
import Switchboard.Board.Basic

namespace Switchboard

/-- A plain request. -/
structure HttpRequest where
  method : String
  /-- The path, perhaps with a query and a fragment. -/
  path : String
  headers : List (String × String)

/-- The answer to one. -/
structure HttpResponse where
  status : Nat
  contentType : Option String
  body : String
deriving DecidableEq

namespace HttpRequest

/-- The path alone. -/
def route (r : HttpRequest) : String :=
  String.ofList (r.path.toList.takeWhile fun c => c != '?' && c != '#')

/-- The character with an upper-case letter of the Latin alphabet made lower-case. -/
def lowered (cs : List Char) : List Char := cs.map Char.toLower

/-- The value of a header, whose name is looked for without regard to case. -/
def header? (r : HttpRequest) (name : String) : Option (List Char) :=
  (r.headers.find? fun h => lowered h.1.toList == name.toList).map (·.2.toList)

/-- Does a text contain another? -/
def hasPart (part : List Char) : List Char → Bool
  | [] => part.isEmpty
  | c :: cs => part.isPrefixOf (c :: cs) || hasPart part cs

/-- What a request for a socket lacks, of several things the first. -/
def lack? (r : HttpRequest) : Option String :=
  if !((r.header? "connection").any fun v => hasPart "upgrade".toList (lowered v)) then
    some "Connection header did not include 'upgrade'"
  else if !((r.header? "upgrade").any fun v => lowered v == "websocket".toList) then
    some "`Upgrade` header did not include 'websocket'"
  else if !((r.header? "sec-websocket-version").any (· == "13".toList)) then
    some "`Sec-WebSocket-Version` header did not include '13'"
  else if (r.header? "sec-websocket-key").isNone then
    some "`Sec-WebSocket-Key` header missing"
  else none

end HttpRequest

namespace HttpResponse

/-- An answer without a body. -/
def bare (status : Nat) : HttpResponse := ⟨status, none, ""⟩

/-- An answer of plain text. -/
def plain (status : Nat) (body : String) : HttpResponse :=
  ⟨status, some "text/plain; charset=utf-8", body⟩

/-- The answer without its body. -/
def headOnly (a : HttpResponse) : HttpResponse := { a with body := "" }

/-- The answer to a request for a socket over a connection that cannot become one. -/
def refusal (r : HttpRequest) : HttpResponse :=
  match r.lack? with
  | some lack => plain 400 lack
  | none => plain 426 "WebSocket request couldn't be upgraded since no upgrade state was present"

end HttpResponse

/-- The counts as they are written. -/
def Stats.text (s : Stats) : String :=
  let number (n : Nat) : String := String.ofList (Text.decimal n)
  "\x7b\"total_connections\":" ++ number s.connections ++
    ",\"authenticated_users\":" ++ number s.users ++
    ",\"total_channels\":" ++ number s.channels ++ "\x7d"

/-- What a path leads to. -/
inductive Resource where
  | socket
  | stats
  | health
deriving DecidableEq, Repr

/-- The resource of a path. -/
def Resource.ofRoute? : String → Option Resource
  | "/ws" => some .socket
  | "/stats" => some .stats
  | "/health" => some .health
  | _ => none

/-- What a resource answers to a request that reads it. -/
def Resource.answer (stats : Stats) (r : HttpRequest) : Resource → HttpResponse
  | .socket => .refusal r
  | .stats => ⟨200, some "application/json", stats.text⟩
  | .health => .plain 200 "ok"

/-- The answer to a plain request.  Only the head of a resource can be asked for besides the
resource itself, and a socket has none. -/
def HttpRequest.answer (stats : Stats) (r : HttpRequest) : HttpResponse :=
  match Resource.ofRoute? r.route, r.method with
  | none, _ => .bare 404
  | some resource, "GET" => resource.answer stats r
  | some .socket, "HEAD" => (HttpResponse.plain 405 "").headOnly
  | some resource, "HEAD" => (resource.answer stats r).headOnly
  | some _, _ => .bare 405

end Switchboard
