import GoP2P.UepsReader

/-!
# The intent dispatcher

A verified packet passes the threat circuit breaker and is then routed to the
handler registered for its intent.  A nil packet is `none`.
-/

namespace GoP2P.Node

open Ueps

def threatScoreThreshold : UInt16 := 50000

def errThreatScoreExceeded : CoreError :=
  .op "Dispatcher.Dispatch"
    (text "packet rejected: threat score exceeds safety threshold (50000)")

def errUnknownIntent : CoreError :=
  .op "Dispatcher.Dispatch" (text "packet dropped: unknown intent")

def errNilPacket : CoreError :=
  .op "Dispatcher.Dispatch" (text "nil packet")

/-- What a handler does with a packet is left open; it may return a value. -/
abbrev IntentHandler (α : Type) := ParsedPacket → Outcome CoreError α

structure Dispatcher (α : Type) where
  handlers : UInt8 → Option (IntentHandler α)

def newDispatcher {α : Type} : Dispatcher α := ⟨fun _ => none⟩

def Dispatcher.registerHandler {α : Type}
    (d : Dispatcher α) (intentID : UInt8) (handler : IntentHandler α) :
    Dispatcher α :=
  ⟨Function.update d.handlers intentID (some handler)⟩

def Dispatcher.dispatch {α : Type}
    (d : Dispatcher α) : Option ParsedPacket → Outcome CoreError α
  | none => .failed errNilPacket
  | some pkt =>
      if pkt.header.threatScore > threatScoreThreshold then
        .failed errThreatScoreExceeded
      else
        match d.handlers pkt.header.intentID with
        | none => .failed errUnknownIntent
        | some handler => handler pkt

end GoP2P.Node
