import Mathlib.Data.Bool.Count
import RocketGame.RocketUpdate
import RocketGame.ShotReceiving

/-!
No shot is doubled between the game thread and the network thread. A fire flag is in the
field, in the packet that the update is about to enqueue, in one it has just taken back, or
in one of the queues; a step moves flags and merges them, and only a shot makes a new one.
-/
namespace RocketGame.FireFlags

open RocketShared RocketUpdate Runs ShotReceiving

def firing (l : List Queued) : ℕ := l.countP fun q => fires q.packet

/-- The flags in the hands of the game thread. Between the enqueue and its reset the field
holds a flag that is in the queue already. -/
def underWay (s : State) : ℕ :=
  match s.control with
  | .enqueue packet => (fires packet).toNat
  | .clearFlag => 0
  | .readPrevious (some previous) => (fires previous.packet).toNat + s.isFiringNotSent.toNat
  | _ => s.isFiringNotSent.toNat

def flags (s : State) : ℕ := underWay s + firing s.outgoing + firing s.dequeued

theorem firing_append (l l' : List Queued) : firing (l ++ l') = firing l + firing l' :=
  List.countP_append

theorem firing_cons (q : Queued) (l : List Queued) :
    firing (q :: l) = (fires q.packet).toNat + firing l := by
  rw [firing, List.countP_cons, Nat.add_comm]
  cases fires q.packet <;> rfl

@[simp] theorem firing_nil : firing [] = 0 := rfl

/-- The fire flag of the packet is the field as the update leaves it. -/
theorem fires_flag (packet : NetworkPacket) (b : Bool) :
    fires { packet with isFiring := if b then 1 else 0 } = b := by
  cases b <;> rfl

section Steps

variable {s s' : State}

/-- An update makes a flag only by a shot. -/
theorem flags_beginUpdate (hbetween : s.control = .between) (isFiring timerDue : Bool)
    (packet : NetworkPacket) :
    flags (beginUpdate s isFiring timerDue packet) ≤ flags s + isFiring.toNat := by
  have hor : (s.isFiringNotSent || isFiring).toNat ≤ s.isFiringNotSent.toNat + isFiring.toNat := by
    cases s.isFiringNotSent <;> cases isFiring <;> decide
  have hbefore : underWay s = s.isFiringNotSent.toNat := by
    rw [underWay, hbetween]
  have hafter : underWay (beginUpdate s isFiring timerDue packet) =
      (s.isFiringNotSent || isFiring).toNat := by
    unfold beginUpdate
    cases timerDue with
    | false => rfl
    | true => exact congrArg Bool.toNat (fires_flag packet _)
  unfold flags
  rw [hbefore, hafter]
  dsimp only [beginUpdate]
  omega

/-- The next step of the update makes none. -/
theorem flags_continueUpdate (hs : continueUpdate s = some s') : flags s' ≤ flags s := by
  unfold continueUpdate at hs
  cases hc : s.control with
  | between => simp only [hc, reduceCtorEq] at hs
  | nullReference => simp only [hc, reduceCtorEq] at hs
  | enqueue packet =>
    simp only [hc, Option.some.injEq] at hs
    subst hs
    simp only [flags, underWay, hc, firing_append, firing_cons, firing_nil]
    omega
  | clearFlag =>
    simp only [hc, Option.some.injEq] at hs
    subst hs
    simp only [flags, underWay, hc, Bool.toNat_false, le_refl]
  | readCount =>
    simp only [hc, Option.some.injEq] at hs
    subst hs
    have hkept : underWay { s with
        control := if s.outgoing.length > 1 then .tryDequeue else .between } =
        underWay s := by
      by_cases hcount : s.outgoing.length > 1
      · simp only [underWay, hc, if_pos hcount]
      · simp only [underWay, hc, if_neg hcount]
    exact (congrArg (· + firing s.outgoing + firing s.dequeued) hkept).le
  | tryDequeue =>
    simp only [hc, Option.some.injEq] at hs
    subst hs
    unfold takePrevious
    cases hout : s.outgoing with
    | nil => simp only [flags, underWay, hc, hout, le_refl]
    | cons q rest =>
      simp only [flags, underWay, hc, hout, firing_cons]
      omega
  | readPrevious previous =>
    cases previous with
    | none =>
      simp only [hc, Option.some.injEq] at hs
      subst hs
      simp only [flags, underWay, hc, le_refl]
    | some previous =>
      simp only [hc, Option.some.injEq] at hs
      subst hs
      have hmerge : (if previous.packet.isFiring = 1 then true else s.isFiringNotSent).toNat ≤
          (fires previous.packet).toNat + s.isFiringNotSent.toNat := by
        by_cases hfires : previous.packet.isFiring = 1
        · rw [if_pos hfires, fires, hfires]
          exact Nat.le_add_right 1 _
        · rw [if_neg hfires]
          exact Nat.le_add_left _ _
      simp only [flags, underWay, hc]
      omega

/-- The network thread moves a flag with its packet. -/
theorem flags_dequeueToSend (s : State) : flags (dequeueToSend s) = flags s := by
  unfold dequeueToSend
  cases hout : s.outgoing with
  | nil => rfl
  | cons q rest =>
    simp only [flags, underWay, hout, firing_append, firing_cons, firing_nil]
    omega

/-- There are no more flags than shots have been fired. -/
def NoShotDoubled (s : State) : Prop := flags s ≤ s.shots.length

theorem length_shots_beginUpdate (s : State) (isFiring timerDue : Bool) (packet : NetworkPacket) :
    (beginUpdate s isFiring timerDue packet).shots.length = s.shots.length + isFiring.toNat := by
  cases isFiring with
  | false => rfl
  | true => exact List.length_append

theorem NoShotDoubled.step {e : Event} (h : NoShotDoubled s) (hs : step s e = some s') :
    NoShotDoubled s' := by
  unfold NoShotDoubled at h ⊢
  cases e with
  | update isFiring timerDue packet =>
    obtain ⟨hbetween, hs⟩ := Option.ite_none_right_eq_some.mp hs
    obtain rfl := Option.some.inj hs
    have hflags := flags_beginUpdate hbetween isFiring timerDue packet
    rw [length_shots_beginUpdate]
    omega
  | game =>
    rw [(ghosts_continueUpdate hs).1]
    exact (flags_continueUpdate hs).trans h
  | network =>
    obtain rfl := Option.some.inj hs
    rw [(ghosts_dequeueToSend s).1, flags_dequeueToSend]
    exact h

end Steps

/-- Of the shots fired so far, no more have been sent than there were. -/
theorem NoShotDoubled.firing_dequeued {s : State} (h : NoShotDoubled s) :
    firing s.dequeued ≤ s.shots.length :=
  (Nat.le_add_left _ _).trans h

end RocketGame.FireFlags
