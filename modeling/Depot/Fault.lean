/-!
# Faults

When something fails, every layer it passes through says what it was doing. A fault is that chain
of messages, outermost first. The messages end early where the next cause is worded by a tool or a
format outside this library; a fault without messages is one whose outermost cause is such. Of that
cause, the beginning may be known. The wording of the system and the numbers of errors, which would
come after it, are left out.
-/

namespace Depot

/-- **Why something failed**, outermost message first. -/
structure Fault where
  /-- The messages of the chain that this library words. -/
  messages : List String
  /-- How the cause begins that comes after them and is worded elsewhere, where this is known. -/
  beyond : Option String := none
  deriving DecidableEq, Repr, Inhabited

namespace Fault

/-- A fault of one message. -/
def ofMessage (message : String) : Fault := { messages := [message] }

/-- A fault worded elsewhere. -/
def foreign : Fault := { messages := [] }

/-- A fault worded elsewhere, and how it begins if this is known. -/
def beginning (beyond : Option String) : Fault := { messages := [], beyond }

/-- The fault as seen by the layer that says `message`. -/
def within (cause : Fault) (message : String) : Fault :=
  { cause with messages := message :: cause.messages }

/-- The chain as far as it is known, its parts separated by a colon and a blank. -/
def render (fault : Fault) : String := ": ".intercalate (fault.messages ++ fault.beyond.toList)

/-- The part of the chain that is worded here, if there is one. -/
def text? (fault : Fault) : Option String :=
  if fault.messages.isEmpty then none else some (": ".intercalate fault.messages)

end Fault

end Depot
