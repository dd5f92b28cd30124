import Simulith.Server.State
import Mathlib.Data.List.Nodup

/-!
# The client table as a list of ids

`Registered t ids` says that the table holds the ids `ids` in its first slots
and nothing after them, with no id empty or repeated. It depends on the names
in the table only, so what touches flags keeps it (`Registered.congr`). Under
it the scans of `simulith_server.c` have closed forms: the search for a free
slot finds slot `ids.length`, a duplicate test is membership in `ids`, and the
barrier functions speak about `HasResponded`, the flag of an id.
-/

namespace Simulith

open CStr

namespace ClientTable

/-- The names of all slots. -/
def names (t : ClientTable) : List (List UInt8) := t.slots.map ClientState.name

theorem ids_eq (t : ClientTable) : t.ids = t.names.filter fun x => x != [] := by
  rw [ids, names, List.filter_map]
  congr 1
  refine List.filter_congr fun c _ => ?_
  by_cases h : c.name = []
  · simp [h, ClientState.isFree_iff.mpr h]
  · simp [h, ClientState.isFree_eq_false_iff.mpr h]

theorem mem_ids {t : ClientTable} {x : List UInt8} : x ∈ t.ids ↔ x ∈ t.names ∧ x ≠ [] := by
  rw [ids_eq, List.mem_filter, bne_iff_ne]

theorem names_mapFirst {t : ClientTable} {n : Nat} {f : ClientState → ClientState}
    (hf : ∀ c, (f c).name = c.name) : (t.mapFirst n f).names = t.names := by
  have : ClientState.name ∘ f = ClientState.name := funext hf
  simp only [names, mapFirst, List.map_append, List.map_map, this]
  rw [← List.map_append, List.take_append_drop]

theorem names_modify {t : ClientTable} {i : Nat} {f : ClientState → ClientState}
    (hf : ∀ c, (f c).name = c.name) : (t.modify i f).names = t.names := by
  apply List.ext_getElem?
  intro j
  simp only [names, modify, List.getElem?_map, List.getElem?_modify]
  cases t.slots[j]? with
  | none => rfl
  | some c => by_cases h : i = j <;> simp [h, hf]

end ClientTable

/-- The table holds `ids`, in order, and is free behind them. -/
structure Registered (t : ClientTable) (ids : List (List UInt8)) : Prop where
  names : t.names = ids ++ List.replicate (maxClients - ids.length) []
  ne : [] ∉ ids
  nodup : ids.Nodup

namespace Registered

variable {t t' : ClientTable} {ids : List (List UInt8)}

theorem congr (h : Registered t ids) (e : t'.names = t.names) : Registered t' ids :=
  ⟨e.trans h.names, h.ne, h.nodup⟩

theorem ids_eq (h : Registered t ids) : t.ids = ids := by
  rw [ClientTable.ids_eq, h.names, List.filter_append, List.filter_eq_self.mpr,
    List.filter_eq_nil_iff.mpr, List.append_nil]
  · intro x hx
    simp [List.eq_of_mem_replicate hx]
  · intro x hx
    simp only [bne_iff_ne, ne_eq]
    rintro rfl
    exact h.ne hx

theorem taken (h : Registered t ids) : (t.slots.take ids.length).map ClientState.name = ids := by
  rw [List.map_take]
  exact (congrArg (List.take ids.length) h.names).trans List.take_left

theorem name_getElem (h : Registered t ids) {i : Nat} (hi : i < t.slots.length) :
    t.slots[i].name ≠ [] ↔ i < ids.length := by
  have e : t.names[i]? = some t.slots[i].name := by
    simp [ClientTable.names, List.getElem?_eq_getElem hi]
  rw [h.names] at e
  rcases Nat.lt_or_ge i ids.length with hlt | hge
  · rw [List.getElem?_append_left hlt] at e
    exact iff_of_true (fun hn => h.ne (hn ▸ List.mem_of_getElem? e)) hlt
  · rw [List.getElem?_append_right hge] at e
    exact iff_of_false (fun hn => hn (List.eq_of_mem_replicate (List.mem_of_getElem? e))) (by omega)

end Registered

namespace Server

variable {s : Server} {ids : List (List UInt8)}

theorem isClientIdTaken_iff {id : List UInt8} :
    s.isClientIdTaken id = true ↔ str id ∈ s.clientStates.ids := by
  rw [ClientTable.mem_ids]
  simp only [isClientIdTaken, List.any_eq_true, ClientState.holds_iff, ClientTable.names,
    List.mem_map]
  constructor
  · rintro ⟨c, hc, hne, e⟩
    exact ⟨⟨c, hc, e⟩, e ▸ hne⟩
  · rintro ⟨⟨c, hc, e⟩, hne⟩
    exact ⟨c, hc, e ▸ hne, e⟩

theorem freeSlot_eq (h : Registered s.clientStates ids) (hlt : ids.length < maxClients) :
    s.freeSlot = some ids.length := by
  have hsz := s.clientStates.size
  rw [freeSlot, List.findIdx?_eq_some_iff_getElem]
  refine ⟨by omega, ?_, fun j hj => ?_⟩
  · rw [ClientState.isFree_iff]
    by_contra hne
    exact absurd ((h.name_getElem (by omega)).mp hne) (Nat.lt_irrefl _)
  · rw [Bool.not_eq_true, ClientState.isFree_eq_false_iff]
    exact (h.name_getElem (by omega)).mpr hj

theorem names_registerClient {slot : Nat} {clientId : List UInt8} :
    (s.registerClient slot clientId).clientStates.names =
      s.clientStates.names.set slot ((str clientId).take 63) := by
  apply List.ext_getElem?
  intro j
  simp only [registerClient, ClientTable.names, ClientTable.modify, List.getElem?_map,
    List.getElem?_modify, List.getElem?_set, List.length_map]
  by_cases hj : slot = j
  · subst hj
    by_cases hlt : slot < s.clientStates.slots.length
    · simp only [List.getElem?_eq_getElem hlt, hlt, ↓reduceIte, Option.map_some, Option.map_eq_map]
      exact congrArg some (CharBuf.str_strncpy_set _ _)
    · simp [hlt]
  · simp [hj]

theorem registered_registerClient (h : Registered s.clientStates ids)
    (hlt : ids.length < maxClients) {clientId : List UInt8} (hne : str clientId ≠ [])
    (hnew : (str clientId).take 63 ∉ ids) :
    Registered (s.registerClient ids.length clientId).clientStates
      (ids ++ [(str clientId).take 63]) where
  names := by
    obtain ⟨k, hk⟩ : ∃ k, maxClients - ids.length = k + 1 := ⟨maxClients - ids.length - 1, by omega⟩
    rw [names_registerClient, h.names, List.set_append_right _ _ (Nat.le_refl _), Nat.sub_self, hk,
      List.replicate_succ, List.set_cons_zero, List.append_assoc, List.singleton_append,
      List.length_append, List.length_singleton]
    rw [show maxClients - (ids.length + 1) = k by omega]
  ne := by
    rw [List.mem_append, List.mem_singleton]
    rintro (hm | hm)
    · exact h.ne hm
    · exact hne (by simpa using hm.symm)
  nodup := by
    rw [List.nodup_append]
    refine ⟨h.nodup, List.nodup_singleton _, fun a ha b hb => ?_⟩
    rw [List.mem_singleton] at hb
    rintro rfl
    exact hnew (hb ▸ ha)

/-! ## The flags -/

/-- The flag of the id `x`, among the slots the barrier looks at. -/
def HasResponded (s : Server) (x : List UInt8) : Prop :=
  ∃ c ∈ s.clientStates.slots.take s.expectedClients, c.name = x ∧ c.responded = true

instance (s : Server) (x : List UInt8) : Decidable (s.HasResponded x) :=
  inferInstanceAs (Decidable (∃ c ∈ s.clientStates.slots.take s.expectedClients, _))

@[simp] theorem names_resetResponses :
    s.resetResponses.clientStates.names = s.clientStates.names :=
  ClientTable.names_mapFirst fun _ => rfl

@[simp] theorem expectedClients_handleAck (id : List UInt8) :
    (s.handleAck id).expectedClients = s.expectedClients := by
  unfold handleAck; split <;> rfl

@[simp] theorem currentTimeNs_handleAck (id : List UInt8) :
    (s.handleAck id).currentTimeNs = s.currentTimeNs := by
  unfold handleAck; split <;> rfl

@[simp] theorem tickIntervalNs_handleAck (id : List UInt8) :
    (s.handleAck id).tickIntervalNs = s.tickIntervalNs := by
  unfold handleAck; split <;> rfl

@[simp] theorem names_handleAck (id : List UInt8) :
    (s.handleAck id).clientStates.names = s.clientStates.names := by
  unfold handleAck
  split
  · exact ClientTable.names_modify fun _ => rfl
  · rfl

theorem not_hasResponded_resetResponses (x : List UInt8) : ¬ s.resetResponses.HasResponded x := by
  rintro ⟨c, hc, -, hr⟩
  have hlen : s.expectedClients ≤ ((s.clientStates.slots.take s.expectedClients).map fun c =>
      { c with responded := false }).length ∨ s.clientStates.slots.drop s.expectedClients = [] := by
    rcases Nat.le_total s.expectedClients s.clientStates.slots.length with h | h
    · left; simp [h]
    · right; exact List.drop_eq_nil_iff.mpr h
  have hmem : c ∈ (s.clientStates.slots.take s.expectedClients).map fun c =>
      { c with responded := false } := by
    simp only [resetResponses, ClientTable.mapFirst] at hc
    rcases hlen with h | h
    · rw [List.take_append_of_le_length h] at hc
      exact List.mem_of_mem_take hc
    · rw [h, List.append_nil] at hc
      exact List.mem_of_mem_take hc
  obtain ⟨d, -, rfl⟩ := List.mem_map.mp hmem
  cases hr

theorem names_take (h : Registered s.clientStates ids) (hn : ids.length = s.expectedClients) :
    (s.clientStates.slots.take s.expectedClients).map ClientState.name = ids := by
  rw [← hn]
  exact h.taken

/-- The barrier is open when every registered id has its flag set. -/
theorem allClientsResponded_iff (h : Registered s.clientStates ids)
    (hn : ids.length = s.expectedClients) :
    s.allClientsResponded = true ↔ ∀ x ∈ ids, s.HasResponded x := by
  have htk := names_take h hn
  have hlen : (s.clientStates.slots.take s.expectedClients).length = s.expectedClients := by
    rw [← List.length_map ClientState.name, htk, hn]
  rw [allClientsResponded, beq_iff_eq]
  nth_rewrite 2 [← hlen]
  rw [List.countP_eq_length, ← htk]
  constructor
  · intro hall x hx
    obtain ⟨c, hc, rfl⟩ := List.mem_map.mp hx
    exact ⟨c, hc, rfl, hall c hc⟩
  · intro hall c hc
    obtain ⟨d, hd, hdn, hr⟩ := hall c.name (List.mem_map_of_mem hc)
    rw [List.inj_on_of_nodup_map (htk ▸ h.nodup) hc hd hdn.symm]
    exact hr

theorem hasResponded_modify {i : Nat}
    (hi : i < (s.clientStates.slots.take s.expectedClients).length) (x : List UInt8) :
    ({ s with clientStates := s.clientStates.modify i fun c => { c with responded := true } } :
        Server).HasResponded x ↔
      s.HasResponded x ∨ x = (s.clientStates.slots.take s.expectedClients)[i].name := by
  simp only [HasResponded, ClientTable.modify, List.take_modify]
  constructor
  · rintro ⟨c, hc, rfl, hr⟩
    obtain ⟨j, hj, rfl⟩ := List.mem_iff_getElem.mp hc
    rw [List.getElem_modify] at hr ⊢
    split
    · next hij =>
      subst hij
      exact .inr rfl
    · next hij =>
      rw [if_neg hij] at hr
      exact .inl ⟨_, List.getElem_mem _, rfl, hr⟩
  · have hself : ∃ c ∈ (s.clientStates.slots.take s.expectedClients).modify i fun c =>
        { c with responded := true },
        c.name = (s.clientStates.slots.take s.expectedClients)[i].name ∧ c.responded = true := by
      refine ⟨_, List.getElem_mem (n := i) (by simpa using hi), ?_⟩
      rw [List.getElem_modify_eq]
      exact ⟨rfl, rfl⟩
    rintro (⟨c, hc, rfl, hr⟩ | rfl)
    · obtain ⟨j, hj, rfl⟩ := List.mem_iff_getElem.mp hc
      by_cases hij : i = j
      · subst hij
        exact hself
      · refine ⟨_, List.getElem_mem (n := j) (by simpa using hj), ?_⟩
        rw [List.getElem_modify, if_neg hij]
        exact ⟨rfl, hr⟩
    · exact hself

/-- An ack sets the flag of the id it carries, and no other. -/
theorem hasResponded_handleAck (h : Registered s.clientStates ids)
    (hn : ids.length = s.expectedClients) {x : List UInt8} (hx : x ∈ ids) (id : List UInt8) :
    (s.handleAck id).HasResponded x ↔ s.HasResponded x ∨ x = str id := by
  have htk := names_take h hn
  unfold handleAck
  split
  · next i hi =>
    obtain ⟨hlt, hh, -⟩ := List.findIdx?_eq_some_iff_getElem.mp hi
    rw [hasResponded_modify hlt, (ClientState.holds_iff.mp hh).2]
  · next hnone =>
    -- no slot holds the id, so `x` is not it
    rw [List.findIdx?_eq_none_iff] at hnone
    refine ⟨.inl, fun hor => hor.resolve_right ?_⟩
    rintro rfl
    rw [← htk] at hx
    obtain ⟨c, hc, hcn⟩ := List.mem_map.mp hx
    have hne : c.name ≠ [] := fun e => h.ne (by rw [← e, ← htk]; exact List.mem_map_of_mem hc)
    have := hnone c hc
    rw [ClientState.holds_iff.mpr ⟨hne, hcn⟩] at this
    cases this

theorem handleAck_eq (h : Registered s.clientStates ids) (hn : ids.length = s.expectedClients)
    {i : Nat} {id : List UInt8} (hi : ids[i]? = some (str id)) :
    s.handleAck id =
      { s with clientStates := s.clientStates.modify i fun c => { c with responded := true } } := by
  obtain ⟨hlt, he⟩ := List.getElem?_eq_some_iff.mp hi
  have htk := names_take h hn
  have hlen : (s.clientStates.slots.take s.expectedClients).length = ids.length := by
    rw [← htk, List.length_map]
  have hname : ∀ j (hj : j < ids.length)
      (hj' : j < (s.clientStates.slots.take s.expectedClients).length),
      (s.clientStates.slots.take s.expectedClients)[j].name = ids[j] := by
    intro j hj hj'
    simp only [← htk, List.getElem_map]
  have hfind : (s.clientStates.slots.take s.expectedClients).findIdx? (·.holds id) = some i := by
    rw [List.findIdx?_eq_some_iff_getElem]
    refine ⟨hlen ▸ hlt, ?_, fun j hj => ?_⟩
    · rw [ClientState.holds_iff, hname i hlt]
      exact ⟨fun e => h.ne (e ▸ List.getElem_mem hlt), he⟩
    · rw [ClientState.holds_iff, hname j (by omega)]
      rintro ⟨-, e⟩
      have := (List.Nodup.getElem_inj_iff h.nodup).mp (e.trans he.symm)
      omega
  rw [handleAck, hfind]

theorem handleAck_of_notMem (h : Registered s.clientStates ids)
    (hn : ids.length = s.expectedClients) {id : List UInt8} (hid : str id ∉ ids) :
    s.handleAck id = s := by
  have hfind : (s.clientStates.slots.take s.expectedClients).findIdx? (·.holds id) = none := by
    rw [List.findIdx?_eq_none_iff]
    intro c hc
    rw [Bool.eq_false_iff]
    intro hh
    refine hid ?_
    rw [← (ClientState.holds_iff.mp hh).2, ← names_take h hn]
    exact List.mem_map_of_mem hc
  rw [handleAck, hfind]

theorem handleAck_of_hasResponded (h : Registered s.clientStates ids)
    (hn : ids.length = s.expectedClients) {id : List UInt8} (hr : s.HasResponded (str id)) :
    s.handleAck id = s := by
  obtain ⟨c, hc, hname, hflag⟩ := hr
  obtain ⟨i, hi, rfl⟩ := List.mem_iff_getElem.mp hc
  have hid : ids[i]? = some (str id) := by
    rw [← names_take h hn, List.getElem?_map, List.getElem?_eq_getElem hi, Option.map_some, hname]
  rw [handleAck_eq h hn hid]
  have hslots : s.clientStates.slots.modify i (fun c => { c with responded := true }) =
      s.clientStates.slots := by
    refine List.ext_getElem (List.length_modify ..) fun j hj hj' => ?_
    rw [List.getElem_modify]
    split
    · next hij =>
      subst hij
      rw [List.getElem_take] at hflag
      exact ClientState.mk.injEq .. ▸ ⟨rfl, hflag.symm⟩
    · rfl
  have hsame : s.clientStates.modify i (fun c => { c with responded := true }) = s.clientStates := by
    rw [← ClientTable.mk.injEq] at hslots
    exact hslots
  rw [hsame]

end Server

end Simulith
