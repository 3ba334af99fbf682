/-
Switchboard/Envelope/Kind.lean

The two closed vocabularies of the wire: the kinds of messages and the codes
of error messages.
-/

namespace Switchboard

/-! ### Kinds -/

/-- What a message is for. -/
inductive Kind where
  | ping
  | pong
  | auth
  | authResult
  | subscribe
  | subscribeAck
  | unsubscribe
  | unsubscribeAck
  | publish
  | publishAck
  | notify
  | error
deriving DecidableEq, Repr

namespace Kind

/-- Every kind, in the order in which they are listed to a reader. -/
def all : List Kind :=
  [.ping, .pong, .auth, .authResult, .subscribe, .subscribeAck, .unsubscribe, .unsubscribeAck,
    .publish, .publishAck, .notify, .error]

/-- The word for a kind on the wire. -/
def name : Kind → String
  | .ping => "ping"
  | .pong => "pong"
  | .auth => "auth"
  | .authResult => "auth_result"
  | .subscribe => "subscribe"
  | .subscribeAck => "subscribe_ack"
  | .unsubscribe => "unsubscribe"
  | .unsubscribeAck => "unsubscribe_ack"
  | .publish => "publish"
  | .publishAck => "publish_ack"
  | .notify => "notify"
  | .error => "error"

/-- The word for a kind in a complaint about it. -/
def title : Kind → String
  | .ping => "Ping"
  | .pong => "Pong"
  | .auth => "Auth"
  | .authResult => "AuthResult"
  | .subscribe => "Subscribe"
  | .subscribeAck => "SubscribeAck"
  | .unsubscribe => "Unsubscribe"
  | .unsubscribeAck => "UnsubscribeAck"
  | .publish => "Publish"
  | .publishAck => "PublishAck"
  | .notify => "Notify"
  | .error => "Error"

def ofName? (s : String) : Option Kind := all.find? (·.name == s)

theorem ofName?_name (k : Kind) : ofName? k.name = some k := by cases k <;> rfl

end Kind

/-! ### Codes -/

/-- What an error message complains about. -/
inductive Code where
  | invalidMessage
  | notAuthenticated
  | unsupportedType
  | connectionNotFound
  | alreadyAuthenticated
  | invalidChannel
  | internal
deriving DecidableEq, Repr

namespace Code

/-- Every code, in the order in which they are listed to a reader. -/
def all : List Code :=
  [.invalidMessage, .notAuthenticated, .unsupportedType, .connectionNotFound,
    .alreadyAuthenticated, .invalidChannel, .internal]

/-- The word for a code on the wire. -/
def name : Code → String
  | .invalidMessage => "invalid_message"
  | .notAuthenticated => "not_authenticated"
  | .unsupportedType => "unsupported_type"
  | .connectionNotFound => "connection_not_found"
  | .alreadyAuthenticated => "already_authenticated"
  | .invalidChannel => "invalid_channel"
  | .internal => "internal"

def ofName? (s : String) : Option Code := all.find? (·.name == s)

theorem ofName?_name (c : Code) : ofName? c.name = some c := by cases c <;> rfl

end Code

end Switchboard
