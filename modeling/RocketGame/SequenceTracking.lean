import RocketGame.Link

/-!
Sequence numbers over a whole run in which packets arrive in order. The receiver
adds up differences modulo 65536 of numbers that were reduced modulo 65535, so
its 64-bit counter runs ahead by one at every wrap of the sender. It is the
number of the newest packet exactly until the first wrap.
-/
namespace RocketGame.SequenceTracking

open AckExchange (End EndChange Message Numbered Side Trims)
open Channels GameMessages Link NetworkUtilities Runs SequenceNumbers

/-- The number handed over last; before any delivery, the number both ends start from. -/
def newest (got : List UInt64) : UInt64 := got.headD 0

def Ahead (got : List UInt64) (number : UInt64) : Prop :=
  newest got < number ∧ number.toNat - (newest got).toNat < 32768

structure Tracks (e : End) : Prop where
  small : e.channel.remoteSequenceNumberSmall = smallSequenceNumber (newest e.got)
  large : e.channel.remoteSequenceNumberLarge = drifted (newest e.got)

theorem tracks_fresh : Tracks {} := ⟨rfl, by decide⟩

theorem Tracks.receive {e : End} (h : Tracks e) {clock : Clock} {m : Message} {channel : Channel}
    (hnumber : m.header.seqNum = smallSequenceNumber m.number) (hahead : Ahead e.got m.number)
    (htrims : Trims (GameMessages.receive clock e.channel m.header) channel) :
    Tracks (e.receive clock m channel) := by
  obtain ⟨hlt, hgap⟩ := hahead
  constructor
  · change channel.remoteSequenceNumberSmall = smallSequenceNumber m.number
    rw [htrims.remoteSmall, ← hnumber]
    exact Channel.accept_remoteSequenceNumberSmall _ _
  · change channel.remoteSequenceNumberLarge = drifted m.number
    have hstep := drifted_add_sequenceNumberDiff (UInt64.le_of_lt hlt) hgap
    rw [← hstep, htrims.remoteLarge, ← h.large, ← h.small, ← hnumber]
    exact Channel.accept_remoteSequenceNumberLarge _ _

theorem Tracks.send {e : End} (h : Tracks e) (salt ack : UInt64) (now : Int64) (ok : Bool) :
    Tracks (e.send salt ack now ok) :=
  ⟨h.small, h.large⟩

theorem Tracks.change {e peer e' : End} (h : Tracks e) (hpeer : Numbered peer)
    (hchange : EndChange (fun m => Ahead e.got m.number) e peer e') : Tracks e' := by
  cases hchange with
  | same => exact h
  | received clock m channel hm hD htrims => exact h.receive (hpeer.sent m hm) hD htrims
  | sent salt ack now ok hack => exact h.send ..
  | answered clock m channel salt ack now ok hm hD htrims hack =>
    exact (h.receive (hpeer.sent m hm) hD htrims).send ..

structure TracksAt (side : Side) (a : AckExchange.State) : Prop where
  numbered : ∀ side, Numbered (a.at side)
  tracks : Tracks (a.at side)

/-- The packets for one side arrive in increasing order, with gaps below 32768. -/
def InOrder (side : Side) (s : State) (e : Event) : Prop :=
  ∀ k packet, e.delivery = some (side, k) → (s.incoming side)[k]? = some packet →
    Ahead (s.got side) packet.number

section Runs

variable {physics : Client.PhysicsEngine} {s : State} {events : List Event} {side : Side}

theorem always_tracks (hinit : Initial s)
    (horder : Throughout (step physics) (InOrder side) s events) :
    Always (step physics) (fun t => WellFormed t ∧ TracksAt side t.abstract) s events := by
  have hstart : TracksAt side s.abstract := by
    rw [hinit.abstract]
    constructor
    · intro side
      cases side <;> exact ⟨rfl, by simp [AckExchange.State.at]⟩
    · cases side <;> exact tracks_fresh
  refine always_protocol (Q := fun _ => True)
    (D := fun a side' m => side' = side → Ahead (a.at side').got m.number)
    hinit.wellFormed hstart ?_ ?_ (Always.of_forall fun _ => trivial) horder
  · rintro s e side' k packet hC hdelivery hpacket rfl
    rw [at_abstract_got]
    exact hC k packet hdelivery hpacket
  · intro a a' hI hchange _
    refine ⟨fun side => (hI.numbered side).change (hchange side), ?_⟩
    exact hI.tracks.change (hI.numbered side.other) ((hchange side).mono fun m hm => hm rfl)

/-- In every state of a run in which the packets for one side arrive in order,
the receiver's counter is the number of the newest one exactly when that number
is below 65535. -/
theorem remoteSequenceNumberLarge_eq_iff (hinit : Initial s)
    (horder : Throughout (step physics) (InOrder side) s events) :
    Always (step physics) (fun t => ∀ channel number, t.channel side = some channel →
      (t.got side).head? = some number →
      (channel.remoteSequenceNumberLarge = number ↔ number < 65535)) s events := by
  apply (always_tracks hinit horder).mono
  rintro t ⟨_, htracks⟩ channel number hchannel hhead
  have hlarge := htracks.tracks.large
  rw [at_abstract_channel hchannel, at_abstract_got, newest, List.headD_eq_head?_getD, hhead,
    Option.getD_some] at hlarge
  rw [hlarge, drifted_eq_iff]

end Runs

/-- The first packet of a fresh connection. -/
theorem remoteSequenceNumberLarge_eq_iff_first :
    Always (step .resting) (fun t => ∀ channel number, t.channel .server = some channel →
      (t.got .server).head? = some number →
      (channel.remoteSequenceNumberLarge = number ↔ number < 65535)) (paired [{}])
      [.send {}, .toServer 0 {}] := by
  refine remoteSequenceNumberLarge_eq_iff (initial_paired _) ⟨?_, fun s₁ hs₁ => ⟨?_, fun _ _ => ?_⟩⟩
  · intro k packet hdelivery
    cases hdelivery
  · obtain rfl := Option.some.inj hs₁
    intro k packet hdelivery hpacket
    obtain ⟨_, rfl⟩ := Prod.mk.inj (Option.some.inj hdelivery)
    obtain rfl := Option.some.inj hpacket
    exact ⟨by decide, by decide⟩
  · exact True.intro

section Wrap

def frame : List Event := [.input {}, .send {}]

structure HasSent (n : ℕ) (s : State) : Prop where
  wellFormed : WellFormed s
  idle : s.client.outgoingState.items = []
  large : s.client.localSequenceNumberLarge = UInt64.ofNat n
  numbers : s.toServer.map Packet.number = (List.range' 1 n).map UInt64.ofNat
  got : s.serverGot = []

theorem run_frame {n : ℕ} {s : State} (h : HasSent n s) :
    ∃ t, run (step .resting) s frame = some t ∧ HasSent (n + 1) t := by
  have hpush : s.client.outgoingState.push {} = (true, ⟨[{}]⟩) := by
    simp [Client.NetworkQueue.push, h.idle, Client.NetworkQueue.capacity]
  let queued : State :=
    { s with client := { s.client with outgoingState := (s.client.outgoingState.push {}).2 } }
  have hqueued : step .resting s (.input {}) = some queued := rfl
  have hpop : queued.client.outgoingState.pop = some ({}, ⟨[]⟩) := by
    simp only [queued, hpush, Client.NetworkQueue.pop]
  obtain ⟨hchannel, _, hidle, hsent⟩ := sendGameState_of_pop .resting {} hpop
  have hlarge : (Client.sendGameState .resting {} queued.client).state.localSequenceNumberLarge =
      UInt64.ofNat (1 + n) := by
    apply (congrArg Channel.localSequenceNumberLarge hchannel).trans
    change s.client.localSequenceNumberLarge + 1 = _
    rw [h.large, Nat.add_comm, UInt64.ofNat_add]
    rfl
  have hwf := (step_simulates h.wellFormed hqueued).1
  have hsend : step .resting queued (.send {}) = some _ := rfl
  refine ⟨_, run_step hqueued (run_step hsend rfl), (step_simulates hwf hsend).1, ?_, ?_, ?_, h.got⟩
  · exact congrArg Client.NetworkQueue.items hidle
  · rw [Nat.add_comm]
    exact hlarge
  · change (s.toServer ++ packets _ (Client.sendGameState .resting {} queued.client).sent).map
      Packet.number = _
    rw [List.map_append, h.numbers, hsent, if_pos rfl, List.range'_1_concat, List.map_append,
      hlarge]
    rfl

theorem run_frames (n : ℕ) :
    ∃ t, run (step .resting) (paired []) (List.replicate n frame).flatten = some t ∧
      HasSent n t := by
  induction n with
  | zero => exact ⟨_, rfl, (initial_paired _).wellFormed, rfl, rfl, rfl, rfl⟩
  | succ n ih =>
    obtain ⟨t, hrun, ht⟩ := ih
    obtain ⟨t', hrun', ht'⟩ := run_frame ht
    rw [List.replicate_succ', List.flatten_append, List.flatten_singleton]
    exact ⟨t', run_append hrun hrun', ht'⟩

theorem HasSent.packet {n k : ℕ} {s : State} (h : HasSent n s) (hk : k < n) :
    ∃ packet, s.toServer[k]? = some packet ∧ packet.number = UInt64.ofNat (1 + k) := by
  have hget : (s.toServer.map Packet.number)[k]? = some (UInt64.ofNat (1 + k)) := by
    rw [h.numbers, List.getElem?_map, List.getElem?_range' hk, Nat.one_mul, Option.map_some]
  rw [List.getElem?_map, Option.map_eq_some_iff] at hget
  exact hget

theorem ahead_cons {got : List UInt64} {m n : UInt64} (hlt : m < n)
    (hgap : n.toNat - m.toNat < 32768) : Ahead (m :: got) n :=
  ⟨hlt, hgap⟩

/-- A packet ahead of the newest one can arrive at the server in order. -/
theorem exists_arrival {s : State} {k : ℕ} {packet : Packet} (hwf : WellFormed s)
    (hpacket : s.toServer[k]? = some packet) (hahead : Ahead s.serverGot packet.number) :
    ∃ t, step .resting s (.toServer k {}) = some t ∧ InOrder .server s (.toServer k {}) ∧
      WellFormed t ∧ t.toServer = s.toServer ∧ t.serverGot = packet.number :: s.serverGot := by
  obtain ⟨t, hstep, hhistory, hgot⟩ := exists_step_toServer .resting hwf hpacket {}
  refine ⟨t, hstep, ?_, (step_simulates hwf hstep).1, hhistory, hgot⟩
  intro j packet' hdelivery hpacket'
  obtain ⟨_, rfl⟩ := Prod.mk.inj (Option.some.inj hdelivery)
  obtain rfl := Option.some.inj (hpacket.symm.trans hpacket')
  exact hahead

theorem inOrder_frames {s : State} {n : ℕ} :
    Throughout (step .resting) (InOrder .server) s (List.replicate n frame).flatten := by
  have hframes : ∀ e ∈ (List.replicate n frame).flatten, e.delivery = none := by
    intro e he
    obtain ⟨_, hmem, he⟩ := List.mem_flatten.mp he
    rw [List.eq_of_mem_replicate hmem] at he
    rcases List.mem_pair.mp he with rfl | rfl <;> rfl
  apply (throughout_of_forall_mem hframes).mono
  intro s e hnone k packet hdelivery
  rw [hnone] at hdelivery
  cases hdelivery

/-- Packets 32767, 65534 and 65535 can arrive in this order. -/
theorem exists_wrapping_run :
    ∃ events t, run (step .resting) (paired []) events = some t ∧
      Throughout (step .resting) (InOrder .server) (paired []) events ∧
      (t.got .server).head? = some 65535 := by
  obtain ⟨t, hrun, ht⟩ := run_frames 65535
  obtain ⟨p₁, hp₁, hnumber₁⟩ := ht.packet (show 32766 < 65535 by omega)
  obtain ⟨p₂, hp₂, hnumber₂⟩ := ht.packet (show 65533 < 65535 by omega)
  obtain ⟨p₃, hp₃, hnumber₃⟩ := ht.packet (show 65534 < 65535 by omega)
  obtain ⟨t₁, hstep₁, horder₁, hwf₁, hhistory₁, hgot₁⟩ := exists_arrival ht.wellFormed hp₁ (by
    rw [ht.got, hnumber₁]
    exact ⟨by decide, by decide⟩)
  rw [← hhistory₁] at hp₂ hp₃
  obtain ⟨t₂, hstep₂, horder₂, hwf₂, hhistory₂, hgot₂⟩ := exists_arrival hwf₁ hp₂ (by
    rw [hgot₁, hnumber₁, hnumber₂]
    exact ahead_cons (by decide) (by decide))
  rw [← hhistory₂] at hp₃
  obtain ⟨t₃, hstep₃, horder₃, _, _, hgot₃⟩ := exists_arrival hwf₂ hp₃ (by
    rw [hgot₂, hnumber₂, hnumber₃]
    exact ahead_cons (by decide) (by decide))
  refine ⟨_ ++ [.toServer 32766 {}, .toServer 65533 {}, .toServer 65534 {}], t₃,
    run_append hrun ?_, throughout_append inOrder_frames fun t' hrun' => ?_, ?_⟩
  · exact run_cons_eq_some.mpr ⟨t₁, hstep₁, run_cons_eq_some.mpr ⟨t₂, hstep₂,
      run_cons_eq_some.mpr ⟨t₃, hstep₃, rfl⟩⟩⟩
  · obtain rfl := Option.some.inj (hrun.symm.trans hrun')
    exact throughout_cons hstep₁ horder₁
      (throughout_cons hstep₂ horder₂ (throughout_cons hstep₃ horder₃ True.intro))
  · rw [State.got, hgot₃, hnumber₃, List.head?_cons]
    rfl

/-- After packet 65535 the counter is 65536. -/
theorem counter_runs_ahead :
    ¬ ∀ (physics : Client.PhysicsEngine) (s : State) (events : List Event) (side : Side),
      Initial s → Throughout (step physics) (InOrder side) s events →
      Always (step physics) (fun t => ∀ channel number, t.channel side = some channel →
        (t.got side).head? = some number → channel.remoteSequenceNumberLarge = number)
        s events := by
  intro h
  obtain ⟨events, t, hrun, horder, hhead⟩ := exists_wrapping_run
  have hclaim := (h .resting (paired []) events .server (initial_paired _) horder).last hrun
  obtain ⟨hwf, htracks⟩ := (always_tracks (initial_paired []) horder).last hrun
  obtain ⟨player, hrecord⟩ := hwf.record
  have hchannel : t.channel .server = some player.toChannel := by
    rw [State.channel, hrecord, Option.map_some]
  have hlarge := htracks.tracks.large
  rw [at_abstract_channel hchannel, at_abstract_got, newest, List.headD_eq_head?_getD, hhead,
    Option.getD_some, hclaim _ _ hchannel hhead] at hlarge
  exact absurd hlarge (by decide)

end Wrap

end RocketGame.SequenceTracking
