namespace CertGate.Gateway

def channelLimit : Nat := 128

inductive AcceptFault
  | connectionRefused
  | connectionAborted
  | connectionReset
  | other (kind : String)
  deriving DecidableEq, Repr

/-- Whether a client is to blame, so that the next connection is accepted without a pause. -/
def AcceptFault.ofClient : AcceptFault → Bool
  | .connectionRefused | .connectionAborted | .connectionReset => true
  | .other _ => false

structure Connection (Stream Peer : Type) where
  number : Nat
  stream : Stream
  peer : Peer
  deriving DecidableEq, Repr

namespace Connection

variable {Stream Peer : Type}

def take? (n : Nat) (cs : List (Connection Stream Peer)) :
    Option (Connection Stream Peer × List (Connection Stream Peer)) :=
  (cs.find? (·.number == n)).map fun c ↦ (c, cs.eraseP (·.number == n))

end Connection

structure Listener (Stream Peer : Type) where
  /-- How many connections have been accepted. -/
  arrived : Nat := 0
  /-- Whether the next attempt to accept one waits, after a fault that is not one of a client. -/
  pausing : Bool := false
  dropped : Bool := false
  handshaking : List (Connection Stream Peer) := []
  /-- Those whose handshake is complete and whose task has not been able to send them. -/
  waiting : List (Connection Stream Peer) := []
  channel : List (Connection Stream Peer) := []
  /-- What the server has been given so far. -/
  handed : List (Connection Stream Peer) := []
  deriving DecidableEq, Repr

inductive Listener.Event (Stream Peer : Type)
  | accept (stream : Stream) (peer : Peer)
  | acceptError (fault : AcceptFault)
  | resume
  | complete (n : Nat)
  | fail (n : Nat)
  | timeOut (n : Nat)
  | send (n : Nat)
  | handOver
  | drop
  deriving DecidableEq, Repr

namespace Listener

variable {Stream Peer : Type}

def accepting (l : Listener Stream Peer) : Bool :=
  !l.pausing && !l.dropped

def hasRoom (l : Listener Stream Peer) : Bool :=
  l.channel.length < channelLimit

/-- What an event makes of the listener, if it can happen. The accepting task ends when the listener
is dropped; the other tasks go on, and what they send is lost. -/
def step? (l : Listener Stream Peer) : Event Stream Peer → Option (Listener Stream Peer)
  | .accept stream peer =>
    if l.accepting then
      some { l with arrived := l.arrived + 1, handshaking := l.handshaking ++ [⟨l.arrived, stream, peer⟩] }
    else none
  | .acceptError fault =>
    if l.accepting then some { l with pausing := !fault.ofClient } else none
  | .resume =>
    if l.pausing && !l.dropped then some { l with pausing := false } else none
  | .complete n =>
    (Connection.take? n l.handshaking).map fun (c, others) ↦
      { l with handshaking := others, waiting := l.waiting ++ [c] }
  | .fail n | .timeOut n =>
    (Connection.take? n l.handshaking).map fun (_, others) ↦ { l with handshaking := others }
  | .send n =>
    (Connection.take? n l.waiting).bind fun (c, others) ↦
      if l.dropped then some { l with waiting := others }
      else if l.hasRoom then some { l with waiting := others, channel := l.channel ++ [c] }
      else none
  | .handOver =>
    match l.dropped, l.channel with
    | false, c :: rest => some { l with channel := rest, handed := l.handed ++ [c] }
    | _, _ => none
  | .drop => if l.dropped then none else some { l with dropped := true, channel := [] }

def run? (l : Listener Stream Peer) (events : List (Event Stream Peer)) : Option (Listener Stream Peer) :=
  events.foldlM step? l

end Listener

end CertGate.Gateway
