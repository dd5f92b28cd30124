import Simulith.Can.Send
import Simulith.Driver.Contract

/-!
# The filters of a CAN bus as a finite map

`CanBus.bank` reads the filter slots of a bus as a map from ids to filters,
and `FilterBank.Step` says what a call may do to such a map. Every call to an
open bus is such a step (`body_bank`), so an id keeps its filter until it is
given back (`CanBuses.names_invariant`, `can_filter_bank`). The last part is
the verdict that a send reads off the map (`passes_filter_iff`).
-/

namespace Simulith

open Lts

/-- A map from filter ids to filters. -/
abbrev FilterBank := Fin canMaxFilters → Option CanFilter

namespace FilterBank

def empty : FilterBank := fun _ => none

/-- What a call to an open bus does to the map of its filters, and what it returns. -/
inductive Step (m : FilterBank) : CanCall → Result → FilterBank → Prop where
  | added (f : CanFilter) (i : Fin canMaxFilters) (hfree : m i = none) :
    Step m (.addFilter (some f)) (.plain i.val .absent) (Function.update m i (some f))
  | full (filter : Option CanFilter) (hfull : ∀ i, m i ≠ none) :
    Step m (.addFilter filter) (.fail .absent) m
  | removed (i : Fin canMaxFilters) (hi : m i ≠ none) :
    Step m (.removeFilter i.val) (.plain 0 .absent) (Function.update m i none)
  | unknown (filterId : Int) (h : ∀ i : Fin canMaxFilters, filterId = i.val → m i = none) :
    Step m (.removeFilter filterId) (.fail .absent) m
  | send (msg : Option CanMessage) (r : Result) : Step m (.send msg) r m
  | receive (msg : Option CanMessage) (r : Result) : Step m (.receive msg) r m
  | init (config : Option CanConfig) (rxCb : Option CanRxCallback) :
    Step m (.init config rxCb) (.fail .absent) m
  | close : Step m .close (.plain 0 .absent) m

end FilterBank

namespace CanBus

/-- The active filters, by id. -/
def bank (bus : CanBus) : FilterBank := fun i =>
  if (bus.filters i).active then some (bus.filters i).filter else none

variable {bus bus' : CanBus} {c : CanCall} {r : Result} {i : Fin canMaxFilters}

theorem bank_eq_none_iff : bus.bank i = none ↔ (bus.filters i).active = false := by
  simp [bank]

theorem bank_ne_none_iff : bus.bank i ≠ none ↔ (bus.filters i).active = true := by
  simp [bank_eq_none_iff]

theorem opened_bank {config : CanConfig} {rxCb : Option CanRxCallback} :
    (bus.opened config rxCb).bank = .empty := rfl

theorem bank_update (slot : FilterSlot) :
    ({ bus with filters := Function.update bus.filters i slot } : CanBus).bank =
      Function.update bus.bank i (if slot.active then some slot.filter else none) := by
  funext j
  by_cases hj : j = i
  · subst hj
    simp [bank]
  · simp [bank, Function.update_of_ne hj]

theorem freeSlot_free (h : bus.freeSlot = some i) : bus.bank i = none := by
  have hfree := List.find?_some h
  rw [bank_eq_none_iff]
  simpa using hfree

theorem removeFilter_inactive {filterId : Int}
    (h : bus.removeFilter filterId = some (bus, .fail .absent)) (hopen : bus.initialized = true)
    (hi : filterId = i.val) : bus.bank i = none := by
  subst hi
  have hlt := i.isLt
  by_contra hne
  have ha := bank_ne_none_iff.mp hne
  have hrange : (0 : Int) ≤ i.val ∧ (i.val : Int) < canMaxFilters := by omega
  simp only [removeFilter, hopen, Bool.not_true, Bool.false_eq_true, if_false, dif_pos hrange,
    Int.toNat_natCast, ha] at h
  have hret : (0 : Int) = -1 := congrArg (fun u => u.2.ret) (Option.some.inj h)
  exact absurd hret (by decide)

/-- Every call to an open bus is a step of the map of its filters. -/
theorem body_bank (hs : bus.Sound) (hopen : bus.initialized = true)
    (h : c.body bus = some (bus', r)) : FilterBank.Step bus.bank c r bus'.bank := by
  cases c with
  | init config rxCb =>
    obtain ⟨rfl, rfl⟩ | ⟨cfg, -, hclosed, -⟩ := init_cases h
    · exact .init config rxCb
    · cases hopen.symm.trans hclosed
  | addFilter filter =>
    obtain ⟨rfl, rfl, hfull⟩ | ⟨i, f, rfl, -, hi, rfl, rfl⟩ := addFilter_cases h
    · exact .full filter fun i => bank_ne_none_iff.mpr (freeSlot_eq_none_iff.mp (hfull hopen) i)
    · rw [bank_update]
      exact .added f i (freeSlot_free hi)
  | removeFilter filterId =>
    obtain ⟨rfl, rfl⟩ | ⟨i, rfl, -, hi, rfl, rfl⟩ := removeFilter_cases h
    · exact .unknown filterId fun i => removeFilter_inactive h hopen
    · rw [bank_update]
      exact .removed i (bank_ne_none_iff.mpr hi)
  | send msg =>
    obtain ⟨rfl, -⟩ | ⟨m, -, -, -, -, ⟨rfl, -⟩ | ⟨rfl, -⟩⟩ := send_cases hs h
    · exact .send msg r
    · exact .send msg r
    · exact .send msg r
  | receive msg =>
    obtain ⟨rfl, -⟩ | ⟨-, -, ⟨-, rfl, -⟩ | ⟨m, -, rfl, -⟩⟩ := receive_cases hs h
    · exact .receive msg r
    · exact .receive msg r
    · exact .receive msg r
  | close =>
    obtain ⟨rfl, rfl⟩ | ⟨-, rfl, rfl⟩ := close_cases h
    · simp [CanCall.body, close, hopen, Result.fail, Result.plain] at h
    · exact .close

end CanBus

/-! ## Runs -/

namespace CanBuses

/-- The call gives filter `i` back: it removes it, or closes the bus. -/
def Releases (i : Fin canMaxFilters) : CanEvent → Prop
  | ((_, .removeFilter filterId), r) => filterId = i.val ∧ r.ret = 0
  | ((_, .close), r) => r.ret = 0
  | _ => False

/-- The bus is open, and `i` is the id of `f`. -/
structure Names (i : Fin canMaxFilters) (f : CanFilter) (bus : CanBus) : Prop where
  sound : bus.Sound
  opened : bus.initialized = true
  entry : bus.bank i = some f

variable {bus bus' : CanBus} {i : Fin canMaxFilters} {f : CanFilter} {e : CanEvent}

theorem stays_open {c : CanCall} {r : Result} (hs : bus.Sound) (hopen : bus.initialized = true)
    (h : c.body bus = some (bus', r)) (hc : c = .close → r.ret ≠ 0) : bus'.initialized = true := by
  cases c with
  | init config rxCb =>
    obtain ⟨rfl, -⟩ | ⟨cfg, -, -, -, rfl, -⟩ := CanBus.init_cases h
    · exact hopen
    · rfl
  | addFilter filter =>
    obtain ⟨rfl, -⟩ | ⟨i, f, -, -, -, rfl, -⟩ := CanBus.addFilter_cases h <;> exact hopen
  | removeFilter filterId =>
    obtain ⟨rfl, -⟩ | ⟨i, -, -, -, rfl, -⟩ := CanBus.removeFilter_cases h <;> exact hopen
  | send msg =>
    obtain ⟨rfl, -⟩ | ⟨m, -, -, -, -, ⟨rfl, -⟩ | ⟨rfl, -⟩⟩ := CanBus.send_cases hs h <;> exact hopen
  | receive msg =>
    obtain ⟨rfl, -⟩ | ⟨-, -, ⟨-, rfl, -⟩ | ⟨m, -, rfl, -⟩⟩ := CanBus.receive_cases hs h <;>
      exact hopen
  | close =>
    obtain ⟨rfl, -⟩ | ⟨-, -, rfl⟩ := CanBus.close_cases h
    · exact hopen
    · exact absurd rfl (hc rfl)

theorem Names.step (hn : Names i f bus) (h : e.1.2.body bus = some (bus', e.2))
    (hr : ¬ Releases i e) : Names i f bus' := by
  obtain ⟨⟨busId, c⟩, r⟩ := e
  dsimp only at h
  have hstep := CanBus.body_bank hn.sound hn.opened h
  refine ⟨CanBus.body_sound hn.sound h, stays_open hn.sound hn.opened h ?_, ?_⟩
  · rintro rfl
    exact hr
  · have hentry := hn.entry
    generalize bus.bank = m at hstep hentry
    generalize bus'.bank = m' at hstep
    cases hstep with
    | added f' j hfree =>
      have hij : i ≠ j := by
        rintro rfl
        rw [hfree] at hentry
        cases hentry
      rwa [Function.update_of_ne hij]
    | removed j hj =>
      have hij : i ≠ j := by
        rintro rfl
        exact hr ⟨rfl, rfl⟩
      rwa [Function.update_of_ne hij]
    | full => exact hentry
    | unknown => exact hentry
    | send => exact hentry
    | receive => exact hentry
    | init => exact hentry
    | close => exact hentry

theorem Names.exec {buses buses' : CanBuses} {k : Fin maxCanBuses} {es : List CanEvent}
    (hn : Names i f (buses k)) (h : Lts.exec CanBuses.step buses es = some buses')
    (hr : ∀ e ∈ on k es, ¬ Releases i e) : Names i f (buses' k) := by
  rw [step_eq] at h
  refine exec_invariant (P := fun _ e => ¬ Releases i e) (fun bus e bus' hn hr hst => ?_) hn
    (along_of_forall fun e he _ => hr e he) (Units.exec_on h k)
  exact hn.step (answer_eq_some.mp hst) hr

/-- An id that add returns is the name of the filter added. -/
theorem names_of_added {buses buses' : CanBuses} {k : Fin maxCanBuses} {busId : UInt8} {r : Result}
    (hs : (buses k).Sound) (hid : unitIndex maxCanBuses busId = some k)
    (h : step buses ((busId, .addFilter (some f)), r) = some buses') (hr : r.ret = i.val) :
    Names i f (buses' k) := by
  have hrun := answer_eq_some.mp h
  rw [CanCall.run_eq, hid] at hrun
  have hbody := access_self hrun
  obtain ⟨-, rfl, -⟩ | ⟨j, f', hf, hopen, hj, hbus, rfl⟩ := CanBus.addFilter_cases hbody
  · exact absurd hr (by simp [Result.fail, Result.plain])
  · cases hf
    have hij : j = i := Fin.ext (Int.ofNat_inj.mp hr)
    subst hij
    refine ⟨CanBus.body_sound hs hbody, by rw [hbus]; exact hopen, ?_⟩
    rw [hbus, CanBus.bank_update]
    exact Function.update_self ..

end CanBuses

variable {buses : CanBuses} {es : List CanEvent}

theorem CanBus.Sound.run_bank {k : Fin maxCanBuses} {busId : UInt8} {c : CanCall}
    (hs : (buses k).Sound) (hid : unitIndex maxCanBuses busId = some k)
    (hopen : (buses k).initialized = true) (hc : c ≠ .addFilter none) :
    ∃ buses' r, c.run busId buses = some (buses', r) ∧
      FilterBank.Step (buses k).bank c r (buses' k).bank := by
  have hkeeps := CanCall.keeps hs c fun hnull => absurd hnull hc
  cases hbody : c.body (buses k) with
  | none =>
    rw [hbody] at hkeeps
    exact hkeeps.elim
  | some u =>
    refine ⟨Function.update buses k u.1, u.2, ?_, ?_⟩
    · rw [CanCall.run_eq, hid]
      exact access_eq hbody
    · rw [Function.update_self]
      exact CanBus.body_bank hs hopen hbody

/-- In every reachable state the filters of a bus are a finite map: every call to an open bus is a
step of it, a successful init empties it, and an id that add has returned names the filter added
until it is given back. -/
theorem can_filter_bank (h : exec CanBuses.step .zero es = some buses) (k : Fin maxCanBuses) :
    (∀ busId c, unitIndex maxCanBuses busId = some k → (buses k).initialized = true →
      c ≠ .addFilter none → ∃ buses' r, c.run busId buses = some (buses', r) ∧
        FilterBank.Step (buses k).bank c r (buses' k).bank) ∧
    (∀ busId config rxCb buses' r, unitIndex maxCanBuses busId = some k →
      simulithCanInit busId buses config rxCb = some (buses', r) → r.ret = 0 →
      (buses' k).initialized = true ∧ (buses' k).bank = .empty) ∧
    (∀ pre busId f (r : Result) post (i : Fin canMaxFilters),
      es = pre ++ ((busId, .addFilter (some f)), r) :: post →
      unitIndex maxCanBuses busId = some k → r.ret = i.val →
      (∀ e ∈ CanBuses.on k post, ¬ CanBuses.Releases i e) →
      (buses k).initialized = true ∧ (buses k).bank i = some f) := by
  refine ⟨fun busId c hid hopen hc => ?_, fun busId config rxCb buses' r hid hinit h0 => ?_,
    fun pre busId f r post i he hid hr hrel => ?_⟩
  · exact (CanBus.Sound.of_exec h k).run_bank hid hopen hc
  · rw [simulithCanInit, hid] at hinit
    obtain ⟨-, rfl⟩ | ⟨cfg, -, -, -, hbus, -⟩ := CanBus.init_cases (access_self hinit)
    · cases h0
    · rw [hbus]
      exact ⟨rfl, CanBus.opened_bank⟩
  · subst he
    obtain ⟨s, hpre, hrest⟩ := exec_append_eq_some.mp h
    obtain ⟨t, hadd, hpost⟩ := exec_cons_eq_some.mp hrest
    have hn := CanBuses.names_of_added (CanBus.Sound.of_exec hpre k) hid hadd hr
    have hn' := hn.exec hpost hrel
    exact ⟨hn'.opened, hn'.entry⟩

theorem can_filter_bank_added : ∃ buses,
    exec CanBuses.step .zero [canOpened, canFilterAdded] = some buses ∧
    (∀ busId c, unitIndex maxCanBuses busId = some 0 → (buses 0).initialized = true →
      c ≠ .addFilter none → ∃ buses' r, c.run busId buses = some (buses', r) ∧
        FilterBank.Step (buses 0).bank c r (buses' 0).bank) ∧
    (buses 0).bank 0 = some ⟨0x123, 0x7FF, 0⟩ := by
  have hrun : (exec CanBuses.step .zero [canOpened, canFilterAdded]).isSome = true := by decide
  obtain ⟨buses, h⟩ := Option.isSome_iff_exists.mp hrun
  obtain ⟨hcalls, -, hnames⟩ := can_filter_bank h 0
  exact ⟨buses, h, hcalls, (hnames [canOpened] 0 _ _ [] 0 rfl rfl rfl (by simp [CanBuses.on,
    Units.on])).2⟩

/-! ## The verdict of a send -/

/-- The ids agree on every bit of the mask. -/
def CanFilter.Agrees (f : CanFilter) (m : CanMessage) : Prop := m.id &&& f.mask = f.id &&& f.mask

instance (f : CanFilter) (m : CanMessage) : Decidable (f.Agrees m) :=
  inferInstanceAs (Decidable (_ = _))

namespace CanBus

/-- Some active filter is for standard frames or for extended ones as the message is one, by the
truth of the two flags, and agrees with its id. -/
def Passes (bus : CanBus) (m : CanMessage) : Prop :=
  ∃ i f, bus.bank i = some f ∧ (m.isExtended = 0 ↔ f.isExtended = 0) ∧ f.Agrees m

/-- An active filter for extended frames that agrees with the id of an extended message has the
message's flag value, or is not the only one to agree: another has it. -/
def FlagsMatch (bus : CanBus) (m : CanMessage) : Prop :=
  m.isExtended ≠ 0 → ∀ i f, bus.bank i = some f → f.isExtended ≠ 0 → f.Agrees m →
    ∃ j g, bus.bank j = some g ∧ g.isExtended = m.isExtended ∧ g.Agrees m

variable {bus : CanBus} {m : CanMessage}

theorem bank_eq_some {i : Fin canMaxFilters} {f : CanFilter} : bus.bank i = some f ↔
    (bus.filters i).active = true ∧ (bus.filters i).filter = f := by
  simp [bank]

theorem passesFilter_iff : bus.passesFilter m = true ↔
    ∃ i f, bus.bank i = some f ∧ f.isExtended = m.isExtended ∧ f.Agrees m := by
  have hone : ∀ f : CanFilter, messagePassesFilter m f = true ↔
      f.isExtended = m.isExtended ∧ f.Agrees m := by
    intro f
    unfold messagePassesFilter
    split
    · next hne => simp [Ne.symm hne]
    · next heq => simp [not_not.mp heq, CanFilter.Agrees]
  simp only [passesFilter, List.any_eq_true, List.mem_finRange, true_and, Bool.and_eq_true, hone]
  constructor
  · rintro ⟨i, ha, hf⟩
    exact ⟨i, _, bank_eq_some.mpr ⟨ha, rfl⟩, hf⟩
  · rintro ⟨i, f, hb, hf⟩
    obtain ⟨ha, rfl⟩ := bank_eq_some.mp hb
    exact ⟨i, ha, hf⟩

end CanBus

/-- The verdict of a send is that of the flags' truth exactly when no filter for extended frames
would pass the message but for its flag value. -/
theorem passes_filter_iff (bus : CanBus) (m : CanMessage) :
    (bus.passesFilter m = true ↔ bus.Passes m) ↔ bus.FlagsMatch m := by
  rw [CanBus.passesFilter_iff]
  constructor
  · rintro h hx i f hf hfx ha
    exact h.mpr ⟨i, f, hf, iff_of_false hx hfx, ha⟩
  · intro h
    constructor
    · rintro ⟨i, f, hf, he, ha⟩
      exact ⟨i, f, hf, by rw [he], ha⟩
    · rintro ⟨i, f, hf, hflag, ha⟩
      by_cases hx : m.isExtended = 0
      · exact ⟨i, f, hf, (hflag.mp hx).trans hx.symm, ha⟩
      · exact h hx i f hf (fun h0 => hx (hflag.mpr h0)) ha

/-- A filter for extended frames and an extended message of the same id whose flag is 2. -/
theorem passes_filter_misses : ∃ buses,
    exec CanBuses.step .zero
      [canOpened, ((0, .addFilter (some ⟨5, 0x1FFFFFFF, 1⟩)), .plain 0 .absent)] = some buses ∧
    isValidMessage (some { CanMessage.zero with id := 5, isExtended := 2 }) = true ∧
    ¬ ((buses 0).passesFilter { CanMessage.zero with id := 5, isExtended := 2 } = true ↔
      (buses 0).Passes { CanMessage.zero with id := 5, isExtended := 2 }) := by
  have hrun : (exec CanBuses.step .zero
      [canOpened, ((0, .addFilter (some ⟨5, 0x1FFFFFFF, 1⟩)), .plain 0 .absent)]).any (fun buses =>
      decide ((buses 0).bank 0 = some ⟨5, 0x1FFFFFFF, 1⟩ ∧
        (buses 0).passesFilter { CanMessage.zero with id := 5, isExtended := 2 } = false)) =
      true := by
    decide
  obtain ⟨buses, hb, hentry, hpass⟩ := exists_exec_of_any hrun
  refine ⟨buses, hb, by decide, fun h => ?_⟩
  rw [h.mpr ⟨0, _, hentry, by decide, by decide⟩] at hpass
  cases hpass

end Simulith
