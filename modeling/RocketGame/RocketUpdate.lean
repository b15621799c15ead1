import RocketGame.RocketShared
import RocketGame.Runs

/-!
How Rocket.Update hands its packets to the network thread. The game thread takes
one atomic step at a time between the updates; the network thread may dequeue
between any two of them. The fire input, the timer and the rest of the packet
are arbitrary. The numbers of the updates and the two histories are ghosts.
-/
namespace RocketGame.RocketUpdate

open RocketShared

structure Queued where
  packet : NetworkPacket
  update : ℕ
  deriving DecidableEq, Repr

inductive Control
  | between
  | enqueue (packet : NetworkPacket)
  | clearFlag
  | readCount
  | tryDequeue
  | readPrevious (previous : Option Queued)
  | nullReference
  deriving DecidableEq, Repr

structure State where
  isFiringNotSent : Bool := false
  control : Control := .between
  outgoing : List Queued := []
  updates : ℕ := 0
  shots : List ℕ := []
  dequeued : List Queued := []
  deriving DecidableEq, Repr

inductive Event
  | update (isFiring timerDue : Bool) (packet : NetworkPacket)
  | game
  | network
  deriving DecidableEq, Repr

/-- Update up to the test of the timer, with the packet it would enqueue. -/
def beginUpdate (s : State) (isFiring timerDue : Bool) (packet : NetworkPacket) : State :=
  let isFiringNotSent := s.isFiringNotSent || isFiring
  { s with
    isFiringNotSent
    control :=
      if timerDue then
        .enqueue { packet with isFiring := if isFiringNotSent then 1 else 0 }
      else .between
    updates := s.updates + 1
    shots := if isFiring then s.shots ++ [s.updates + 1] else s.shots }

/-- TryDequeue of the game thread; previous is null when the queue is empty. -/
def takePrevious (s : State) : State :=
  match s.outgoing with
  | [] => { s with control := .readPrevious none }
  | q :: rest => { s with outgoing := rest, control := .readPrevious (some q) }

def continueUpdate (s : State) : Option State :=
  match s.control with
  | .between => none
  | .enqueue packet => some
      { s with outgoing := s.outgoing ++ [⟨packet, s.updates⟩], control := .clearFlag }
  | .clearFlag => some { s with isFiringNotSent := false, control := .readCount }
  | .readCount => some
      { s with control := if s.outgoing.length > 1 then .tryDequeue else .between }
  | .tryDequeue => some (takePrevious s)
  | .readPrevious none => some { s with control := .nullReference }
  | .readPrevious (some previous) => some
      { s with
        isFiringNotSent := if previous.packet.isFiring = 1 then true else s.isFiringNotSent
        control := .between }
  | .nullReference => none

def dequeueToSend (s : State) : State :=
  match s.outgoing with
  | [] => s
  | q :: rest => { s with outgoing := rest, dequeued := s.dequeued ++ [q] }

def step (s : State) : Event → Option State
  | .update isFiring timerDue packet =>
    if s.control = .between then some (beginUpdate s isFiring timerDue packet) else none
  | .game => continueUpdate s
  | .network => some (dequeueToSend s)

variable {s s' : State}

/-- Only the begin of an update counts. -/
theorem ghosts_continueUpdate (hs : continueUpdate s = some s') :
    s'.shots = s.shots ∧ s'.updates = s.updates := by
  unfold continueUpdate at hs
  split at hs <;> cases hs <;> try exact ⟨rfl, rfl⟩
  unfold takePrevious
  split <;> exact ⟨rfl, rfl⟩

theorem ghosts_dequeueToSend (s : State) :
    (dequeueToSend s).shots = s.shots ∧ (dequeueToSend s).updates = s.updates := by
  unfold dequeueToSend
  split <;> exact ⟨rfl, rfl⟩

end RocketGame.RocketUpdate
