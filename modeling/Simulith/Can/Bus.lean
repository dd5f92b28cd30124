import Simulith.Driver.Can

/-!
# A CAN bus and the messages waiting on it

`CanBus.unread` reads the circular buffer as a queue of messages. A bus is
`Sound` when both positions lie in the buffer and every waiting message is
valid. The lemmas say what each operation does to a sound bus, with `push` and
`pop` for the two that move messages; `body_sound` is what they share.
-/

namespace Simulith

/-- The id is within the range of the frame type, and there are at most 8 data bytes. -/
structure CanMessage.WellFormed (m : CanMessage) : Prop where
  standard : m.isExtended = 0 → m.id ≤ canIdStdMax
  extended : m.isExtended ≠ 0 → m.id ≤ canIdExtMax
  dlc_le : m.dlc ≤ canMaxDlc

theorem isValidMessage_iff {m : CanMessage} : isValidMessage (some m) = true ↔ m.WellFormed := by
  unfold isValidMessage
  by_cases hx : m.isExtended = 0
  · constructor
    · intro h
      simp only [hx, ne_eq, not_true_eq_false, false_and, if_false, true_and] at h
      refine ⟨fun _ => ?_, fun hne => absurd hx hne, ?_⟩ <;> grind
    · rintro ⟨h1, -, h3⟩
      have := h1 hx
      simp only [hx, ne_eq, not_true_eq_false, false_and, if_false, true_and]
      grind
  · constructor
    · intro h
      refine ⟨fun he => absurd he hx, fun _ => ?_, ?_⟩ <;> grind
    · rintro ⟨-, h2, h3⟩
      have := h2 hx
      grind

theorem CanMessage.WellFormed.log {m : CanMessage} (h : m.WellFormed) : m.log = some () :=
  if_pos (.inr (UInt8.le_iff_toNat_le.mp h.dlc_le))

namespace CanBus

/-- The messages waiting to be received, oldest first. -/
def unread (bus : CanBus) : List CanMessage := Ring.contents bus.rxBuffer bus.rxHead bus.rxTail

structure Sound (bus : CanBus) : Prop where
  head_lt : bus.rxHead < canRxSlots
  tail_lt : bus.rxTail < canRxSlots
  wellFormed : ∀ m ∈ bus.unread, m.WellFormed

theorem sound_zero : CanBus.zero.Sound := by
  refine ⟨by decide, by decide, fun m hm => ?_⟩
  have : CanBus.zero.unread = [] := rfl
  rw [this] at hm
  cases hm

/-- The bus with `m` stored at the head of its buffer. -/
def push (bus : CanBus) (h : bus.rxHead < canRxSlots) (m : CanMessage) : CanBus :=
  { bus with
    rxBuffer := Function.update bus.rxBuffer ⟨bus.rxHead, h⟩ m
    rxHead := (bus.rxHead + 1) % canRxSlots }

/-- The bus with its oldest message taken out. -/
def pop (bus : CanBus) : CanBus := { bus with rxTail := (bus.rxTail + 1) % canRxSlots }

variable {bus bus' : CanBus} {m : CanMessage} {r : Result}

namespace Sound

theorem length_unread_lt (hs : bus.Sound) : bus.unread.length < canRxSlots := by
  rw [unread, Ring.length_contents]
  exact Ring.count_lt hs.head_lt hs.tail_lt

theorem unread_eq_nil_iff (hs : bus.Sound) : bus.unread = [] ↔ bus.rxHead = bus.rxTail :=
  Ring.contents_eq_nil_iff hs.tail_lt

theorem full_iff (hs : bus.Sound) :
    (bus.rxHead + 1) % canRxSlots = bus.rxTail ↔ bus.unread.length = 31 := by
  rw [unread, Ring.length_contents]
  exact Ring.full_iff hs.head_lt hs.tail_lt

theorem room_iff (hs : bus.Sound) :
    (bus.rxHead + 1) % canRxSlots ≠ bus.rxTail ↔ bus.unread.length < 31 := by
  have hlt : bus.unread.length < 32 := hs.length_unread_lt
  rw [ne_eq, hs.full_iff]
  omega

theorem unread_push (hs : bus.Sound) (hroom : (bus.rxHead + 1) % canRxSlots ≠ bus.rxTail)
    (m : CanMessage) : (bus.push hs.head_lt m).unread = bus.unread ++ [m] :=
  Ring.contents_push hs.head_lt hs.tail_lt hroom

theorem unread_eq_cons (hs : bus.Sound) (hne : bus.rxHead ≠ bus.rxTail) :
    bus.unread = bus.rxBuffer ⟨bus.rxTail, hs.tail_lt⟩ :: bus.pop.unread :=
  Ring.contents_pop hs.head_lt hs.tail_lt hne

theorem push (hs : bus.Sound) (hroom : (bus.rxHead + 1) % canRxSlots ≠ bus.rxTail)
    (hm : m.WellFormed) : (bus.push hs.head_lt m).Sound := by
  refine ⟨Ring.succ_mod_lt hs.head_lt, hs.tail_lt, fun x hx => ?_⟩
  rw [hs.unread_push hroom, List.mem_append, List.mem_singleton] at hx
  rcases hx with hx | rfl
  · exact hs.wellFormed x hx
  · exact hm

theorem pop (hs : bus.Sound) (hne : bus.rxHead ≠ bus.rxTail) : bus.pop.Sound := by
  refine ⟨hs.head_lt, Ring.succ_mod_lt hs.tail_lt, fun x hx => hs.wellFormed x ?_⟩
  rw [hs.unread_eq_cons hne]
  exact List.mem_cons_of_mem _ hx

end Sound

/-! ## Send and receive -/

theorem send_closed {msg : Option CanMessage} (h : bus.initialized = false) :
    bus.send msg = some (bus, .fail .absent) := by
  simp [send, h]

theorem send_invalid {msg : Option CanMessage} (h : isValidMessage msg = false) :
    bus.send msg = some (bus, .fail .absent) := by
  simp [send, h]

/-- A valid message on an open bus: stored if there is a callback and room, dropped if not, and
0 in each case. -/
theorem send_valid (hs : bus.Sound) (hopen : bus.initialized = true) (hm : m.WellFormed) :
    bus.send (some m) =
      if bus.rxCallback.isSome = true ∧ (bus.rxHead + 1) % canRxSlots ≠ bus.rxTail then
        some (bus.push hs.head_lt m, .plain 0 .absent)
      else some (bus, .plain 0 .absent) := by
  by_cases hcb : bus.rxCallback.isSome = true
  · by_cases hroom : (bus.rxHead + 1) % canRxSlots = bus.rxTail
    · simp [send, hopen, isValidMessage_iff.mpr hm, hm.log, hcb, hroom]
    · simp [send, hopen, isValidMessage_iff.mpr hm, hm.log, hcb, hroom,
        Ring.store_of_lt hs.head_lt, push]
  · simp [send, hopen, isValidMessage_iff.mpr hm, hm.log, hcb]

theorem receive_closed {msg : Option CanMessage} (h : bus.initialized = false) :
    bus.receive msg = some (bus, .fail (.ofFrame msg)) := by
  simp [receive, h]

theorem receive_none : bus.receive none = some (bus, .fail .absent) := by
  simp [receive, Buffer.ofFrame]

theorem receive_empty (hopen : bus.initialized = true) (h : bus.rxHead = bus.rxTail) :
    bus.receive (some m) = some (bus, .plain 0 (.frame m)) := by
  simp [receive, hopen, h, Buffer.ofFrame]

theorem receive_some (hs : bus.Sound) (hopen : bus.initialized = true)
    (hne : bus.rxHead ≠ bus.rxTail) : bus.receive (some m) =
      some (bus.pop, .plain 1 (.frame (bus.rxBuffer ⟨bus.rxTail, hs.tail_lt⟩))) := by
  have hm : (bus.rxBuffer ⟨bus.rxTail, hs.tail_lt⟩).WellFormed := by
    refine hs.wellFormed _ ?_
    rw [hs.unread_eq_cons hne]
    exact List.mem_cons_self
  simp [receive, hopen, hne, Ring.load_of_lt hs.tail_lt, hm.log, pop]

/-! ## The other operations -/

/-- The bus as a successful initialisation leaves it; the buffer keeps its old contents. -/
def opened (config : CanConfig) (rxCb : Option CanRxCallback) (bus : CanBus) : CanBus where
  initialized := true
  config := config
  rxCallback := rxCb
  filters _ := .zero
  rxBuffer := bus.rxBuffer
  rxHead := 0
  rxTail := 0

theorem opened_unread {config : CanConfig} {rxCb : Option CanRxCallback} :
    (bus.opened config rxCb).unread = [] := rfl

theorem opened_sound (config : CanConfig) (rxCb : Option CanRxCallback) :
    (bus.opened config rxCb).Sound := by
  refine ⟨Nat.pos_of_neZero _, Nat.pos_of_neZero _, fun m hm => ?_⟩
  rw [opened_unread] at hm
  cases hm

theorem init_cases {config : Option CanConfig} {rxCb : Option CanRxCallback}
    (h : bus.init config rxCb = some (bus', r)) :
    bus' = bus ∧ r = .fail .absent ∨
      ∃ cfg, config = some cfg ∧ bus.initialized = false ∧ CanConfig.isValid config = true ∧
        bus' = bus.opened cfg rxCb ∧ r = .plain 0 .absent := by
  unfold init at h
  split at h
  · cases h
    exact .inl ⟨rfl, rfl⟩
  · next hv =>
    split at h
    · cases h
      exact .inl ⟨rfl, rfl⟩
    · next hc =>
      obtain ⟨cfg, rfl, h⟩ := Option.bind_eq_some_iff.mp h
      cases h
      exact .inr ⟨cfg, rfl, by simpa using hc, by simpa using hv, rfl, rfl⟩

theorem addFilter_cases {filter : Option CanFilter} (h : bus.addFilter filter = some (bus', r)) :
    bus' = bus ∧ r = .fail .absent ∧ (bus.initialized = true → bus.freeSlot = none) ∨
      ∃ i f, filter = some f ∧ bus.initialized = true ∧ bus.freeSlot = some i ∧
        bus' = { bus with filters := Function.update bus.filters i ⟨f, true⟩ } ∧
        r = .plain i.val .absent := by
  unfold addFilter at h
  split at h
  · next hc =>
    cases h
    exact .inl ⟨rfl, rfl, fun ho => by simp [ho] at hc⟩
  · next ho =>
    split at h
    · next i hi =>
      obtain ⟨f, rfl, h⟩ := Option.bind_eq_some_iff.mp h
      cases h
      exact .inr ⟨i, f, rfl, by simpa using ho, hi, rfl, rfl⟩
    · next hi =>
      cases h
      exact .inl ⟨rfl, rfl, fun _ => hi⟩

theorem removeFilter_cases {filterId : Int} (h : bus.removeFilter filterId = some (bus', r)) :
    bus' = bus ∧ r = .fail .absent ∨
      ∃ i : Fin canMaxFilters, filterId = i.val ∧ bus.initialized = true ∧
        (bus.filters i).active = true ∧
        bus' = { bus with
          filters := Function.update bus.filters i { bus.filters i with active := false } } ∧
        r = .plain 0 .absent := by
  unfold removeFilter at h
  split at h
  · cases h
    exact .inl ⟨rfl, rfl⟩
  · next ho =>
    split at h
    · next hrange =>
      dsimp only at h
      split at h
      · cases h
        exact .inl ⟨rfl, rfl⟩
      · next ha =>
        cases h
        refine .inr ⟨⟨filterId.toNat, by omega⟩, ?_, by simpa using ho, by simpa using ha, rfl, rfl⟩
        exact (Int.toNat_of_nonneg hrange.1).symm
    · cases h
      exact .inl ⟨rfl, rfl⟩

theorem close_cases (h : bus.close = some (bus', r)) :
    bus' = bus ∧ r = .fail .absent ∨
      bus.initialized = true ∧ bus' = { bus with initialized := false } ∧ r = .plain 0 .absent := by
  unfold close at h
  split at h
  · cases h
    exact .inl ⟨rfl, rfl⟩
  · next ho =>
    cases h
    exact .inr ⟨by simpa using ho, rfl, rfl⟩

theorem send_cases (hs : bus.Sound) {msg : Option CanMessage} (h : bus.send msg = some (bus', r)) :
    bus' = bus ∧ r = .fail .absent ∧ (bus.initialized = false ∨ isValidMessage msg = false) ∨
      ∃ m, msg = some m ∧ m.WellFormed ∧ bus.initialized = true ∧ r = .plain 0 .absent ∧
        (bus' = bus ∧ (bus.rxCallback = none ∨ (bus.rxHead + 1) % canRxSlots = bus.rxTail) ∨
          bus' = bus.push hs.head_lt m ∧ bus.rxCallback.isSome = true ∧
            (bus.rxHead + 1) % canRxSlots ≠ bus.rxTail) := by
  cases hopen : bus.initialized with
  | false =>
    cases (send_closed hopen).symm.trans h
    exact .inl ⟨rfl, rfl, .inl rfl⟩
  | true =>
    cases hv : isValidMessage msg with
    | false =>
      cases (send_invalid hv).symm.trans h
      exact .inl ⟨rfl, rfl, .inr rfl⟩
    | true =>
      cases msg with
      | none => cases hv
      | some m =>
        have hm := isValidMessage_iff.mp hv
        rw [send_valid hs hopen hm] at h
        refine .inr ⟨m, rfl, hm, rfl, ?_⟩
        split at h
        · next hstore =>
          cases h
          exact ⟨rfl, .inr ⟨rfl, hstore⟩⟩
        · next hdrop =>
          cases h
          refine ⟨rfl, .inl ⟨rfl, ?_⟩⟩
          rcases not_and_or.mp hdrop with hcb | hroom
          · exact .inl (by simpa using hcb)
          · exact .inr (not_not.mp hroom)

theorem receive_cases (hs : bus.Sound) {msg : Option CanMessage}
    (h : bus.receive msg = some (bus', r)) :
    bus' = bus ∧ r = .fail (.ofFrame msg) ∧ (bus.initialized = false ∨ msg = none) ∨
      bus.initialized = true ∧ msg.isSome = true ∧
        (bus.unread = [] ∧ bus' = bus ∧ r = .plain 0 (.ofFrame msg) ∨
          ∃ m, bus.unread = m :: bus'.unread ∧ bus' = bus.pop ∧ bus.rxHead ≠ bus.rxTail ∧
            r = .plain 1 (.frame m)) := by
  cases hopen : bus.initialized with
  | false =>
    cases (receive_closed hopen).symm.trans h
    exact .inl ⟨rfl, rfl, .inl rfl⟩
  | true =>
    cases msg with
    | none =>
      cases receive_none.symm.trans h
      exact .inl ⟨rfl, rfl, .inr rfl⟩
    | some out =>
      refine .inr ⟨rfl, rfl, ?_⟩
      by_cases he : bus.rxHead = bus.rxTail
      · cases (receive_empty hopen he).symm.trans h
        exact .inl ⟨hs.unread_eq_nil_iff.mpr he, rfl, rfl⟩
      · cases (receive_some hs hopen he).symm.trans h
        exact .inr ⟨_, hs.unread_eq_cons he, rfl, he, rfl⟩

theorem body_sound (hs : bus.Sound) {c : CanCall} (h : c.body bus = some (bus', r)) :
    bus'.Sound := by
  cases c with
  | init config rxCb =>
    obtain ⟨rfl, -⟩ | ⟨cfg, -, -, -, rfl, -⟩ := init_cases h
    · exact hs
    · exact opened_sound _ _
  | addFilter filter =>
    obtain ⟨rfl, -⟩ | ⟨i, f, -, -, -, rfl, -⟩ := addFilter_cases h
    · exact hs
    · exact ⟨hs.head_lt, hs.tail_lt, hs.wellFormed⟩
  | removeFilter filterId =>
    obtain ⟨rfl, -⟩ | ⟨i, -, -, -, rfl, -⟩ := removeFilter_cases h
    · exact hs
    · exact ⟨hs.head_lt, hs.tail_lt, hs.wellFormed⟩
  | send msg =>
    obtain ⟨rfl, -⟩ | ⟨m, -, hm, -, -, ⟨rfl, -⟩ | ⟨rfl, -, hroom⟩⟩ := send_cases hs h
    · exact hs
    · exact hs
    · exact hs.push hroom hm
  | receive msg =>
    obtain ⟨rfl, -⟩ | ⟨-, -, ⟨-, rfl, -⟩ | ⟨m, -, rfl, hne, -⟩⟩ := receive_cases hs h
    · exact hs
    · exact hs
    · exact hs.pop hne
  | close =>
    obtain ⟨rfl, -⟩ | ⟨-, rfl, -⟩ := close_cases h
    · exact hs
    · exact ⟨hs.head_lt, hs.tail_lt, hs.wellFormed⟩

end CanBus

end Simulith
