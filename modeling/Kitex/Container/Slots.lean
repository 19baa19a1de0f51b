import Mathlib.Data.List.Forall2
import Mathlib.Logic.Function.Iterate

/-! # Changing one slot of a list

A list of records is used as an array whose slots are changed in place. The
lemmas say what a change does to lookups and to the number of records with a
property, and which relations hold between the records of a slot before and
after it.
-/

namespace Kitex.Container

universe u

variable {α : Type u}

variable {records : List α} {slot other : Nat} {record a b : α} {change : α → α} {p : α → Prop}

theorem getElem?_modify_self (hrecord : records[slot]? = some record) (change : α → α) :
    (records.modify slot change)[slot]? = some (change record) := by
  simp [hrecord]

theorem getElem?_modify_ne (hne : other ≠ slot) (records : List α) (change : α → α) :
    (records.modify slot change)[other]? = records[other]? := by
  simp [Ne.symm hne]

/-- A record of the changed list is one of the old list, or the changed one. -/
theorem getElem?_modify_cases {found : α}
    (hfound : (records.modify slot change)[other]? = some found) :
    (other ≠ slot ∧ records[other]? = some found) ∨
      ∃ record, other = slot ∧ records[slot]? = some record ∧ found = change record := by
  by_cases heq : other = slot
  · subst heq
    rw [List.getElem?_modify_eq] at hfound
    obtain ⟨record, hrecord, rfl⟩ := Option.map_eq_some_iff.mp hfound
    exact .inr ⟨record, rfl, hrecord, rfl⟩
  · rw [getElem?_modify_ne heq] at hfound
    exact .inl ⟨heq, hfound⟩

theorem mem_modify_cases (hmem : a ∈ records.modify slot change) :
    a ∈ records ∨ ∃ record, records[slot]? = some record ∧ a = change record := by
  obtain ⟨other, hother⟩ := List.mem_iff_getElem?.mp hmem
  rcases getElem?_modify_cases hother with ⟨-, hold⟩ | ⟨record, -, hrecord, rfl⟩
  · exact .inl (List.mem_of_getElem? hold)
  · exact .inr ⟨record, hrecord, rfl⟩

/-- What holds of the other records and of the changed one holds of all. -/
theorem forall_getElem?_modify {p : Nat → α → Prop}
    (hother : ∀ (other : Nat) record, other ≠ slot → records[other]? = some record →
      p other record) (hself : ∀ record, records[slot]? = some record → p slot (change record)) :
    ∀ (other : Nat) record, (records.modify slot change)[other]? = some record →
      p other record := by
  intro other found hfound
  rcases getElem?_modify_cases hfound with ⟨hne, hold⟩ | ⟨record, rfl, hrecord, rfl⟩
  · exact hother other found hne hold
  · exact hself record hrecord

theorem forall_getElem?_concat {p : Nat → α → Prop}
    (hold : ∀ (slot : Nat) found, records[slot]? = some found → p slot found)
    (hnew : p records.length record) :
    ∀ (slot : Nat) found, (records ++ [record])[slot]? = some found → p slot found := by
  intro slot found hfound
  rw [List.getElem?_append] at hfound
  split at hfound
  next => exact hold slot found hfound
  next hge =>
    rw [List.getElem?_singleton] at hfound
    obtain ⟨hzero, ⟨⟩⟩ := Option.ite_none_right_eq_some.mp hfound
    obtain rfl : slot = records.length := by omega
    exact hnew

/-- A property that some record has is still had, unless the change gives it up. -/
theorem exists_mem_modify_or (change : α → α) {q : Prop} (hrecord : records[slot]? = some record)
    (hkeep : p record → p (change record) ∨ q) (hexists : ∃ a ∈ records, p a) :
    (∃ a ∈ records.modify slot change, p a) ∨ q := by
  obtain ⟨a, hmem, ha⟩ := hexists
  obtain ⟨other, hother⟩ := List.mem_iff_getElem?.mp hmem
  by_cases heq : other = slot
  · subst heq
    cases hrecord.symm.trans hother
    exact (hkeep ha).imp_left fun hchange =>
      ⟨_, List.mem_of_getElem? (getElem?_modify_self hrecord change), hchange⟩
  · rw [← getElem?_modify_ne heq records change] at hother
    exact .inl ⟨a, List.mem_of_getElem? hother, ha⟩

theorem exists_mem_modify (hrecord : records[slot]? = some record)
    (hkeep : p record → p (change record)) (hexists : ∃ a ∈ records, p a) :
    ∃ a ∈ records.modify slot change, p a :=
  (exists_mem_modify_or change hrecord (fun ha => .inl (hkeep ha)) hexists).resolve_right id

theorem exists_mem_concat (hexists : ∃ a ∈ records, p a) : ∃ a ∈ records ++ [record], p a := by
  obtain ⟨a, hmem, ha⟩ := hexists
  exact ⟨a, List.mem_append_left [record] hmem, ha⟩

/-- A number of each record, added up. -/
def total (f : α → Nat) : List α → Nat
  | [] => 0
  | record :: records => f record + total f records

theorem total_modify (hrecord : records[slot]? = some record) (f : α → Nat) (change : α → α) :
    total f (records.modify slot change) + f record = total f records + f (change record) := by
  induction records generalizing slot with
  | nil => simp at hrecord
  | cons first rest ih =>
    cases slot with
    | zero =>
      obtain rfl : first = record := by simpa using hrecord
      simp only [List.modify_zero_cons, total]
      omega
    | succ slot =>
      have hrest := ih (by simpa using hrecord)
      simp only [List.modify_succ_cons, total]
      omega

theorem countP_eq_total (p : α → Bool) (records : List α) :
    records.countP p = total (fun a => if p a then 1 else 0) records := by
  induction records with
  | nil => rfl
  | cons first rest ih => rw [List.countP_cons, ih, total, Nat.add_comm]

/-- The count changes as the changed record does. -/
theorem countP_modify (hrecord : records[slot]? = some record) (p : α → Bool) (change : α → α) :
    (records.modify slot change).countP p + (if p record then 1 else 0) =
      records.countP p + (if p (change record) then 1 else 0) := by
  rw [countP_eq_total, countP_eq_total]
  exact total_modify hrecord _ change

/-- What the changed record gains and loses, all records together do. -/
theorem perm_flatMap_modify {β : Type u} [DecidableEq β] (hrecord : records[slot]? = some record)
    (items : α → List β) (change : α → α) {gained lost : List β}
    (hperm : (items record ++ gained).Perm (items (change record) ++ lost)) :
    (records.flatMap items ++ gained).Perm
      ((records.modify slot change).flatMap items ++ lost) := by
  rw [List.perm_iff_count] at hperm ⊢
  intro item
  specialize hperm item
  rw [List.count_append, List.count_append] at hperm ⊢
  induction records generalizing slot with
  | nil => simp at hrecord
  | cons first rest ih =>
    cases slot with
    | zero =>
      obtain rfl : first = record := by simpa using hrecord
      simp only [List.modify_zero_cons, List.flatMap_cons, List.count_append]
      omega
    | succ slot =>
      have hrest := ih (by simpa using hrecord)
      simp only [List.modify_succ_cons, List.flatMap_cons, List.count_append]
      omega

/-- A property that is counted at most once belongs to one slot. -/
theorem slot_eq_of_countP_le_one {p : α → Bool} (hcount : records.countP p ≤ 1)
    (ha : records[slot]? = some a) (hb : records[other]? = some b) (hpa : p a)
    (hpb : p b) : slot = other := by
  induction records generalizing slot other with
  | nil => simp at ha
  | cons first rest ih =>
    rw [List.countP_cons] at hcount
    -- a record of the rest is counted there, so the first one is not
    have hrest : ∀ {k : Nat} {c : α}, rest[k]? = some c → p c = true → p first = false := by
      intro k c hc hpc
      have hpos := List.countP_pos_iff.mpr ⟨c, List.mem_of_getElem? hc, hpc⟩
      by_contra hfirst
      simp only [Bool.not_eq_false] at hfirst
      rw [if_pos hfirst] at hcount
      omega
    cases slot with
    | zero =>
      obtain rfl : first = a := by simpa using ha
      cases other with
      | zero => rfl
      | succ other => simp [hrest (by simpa using hb) hpb] at hpa
    | succ slot =>
      cases other with
      | zero =>
        obtain rfl : first = b := by simpa using hb
        simp [hrest (by simpa using ha) hpa] at hpb
      | succ other =>
        have hle : rest.countP p ≤ 1 := Nat.le_trans (Nat.le_add_right ..) hcount
        exact congrArg Nat.succ (ih hle (by simpa using ha) (by simpa using hb))

/-! ## Changing several slots -/

/-- Change the slots of a list one after another. -/
def modifyEach (change : α → α) (slots : List Nat) (records : List α) : List α :=
  slots.foldl (fun records slot => records.modify slot change) records

theorem modifyEach_cons (change : α → α) (slot : Nat) (slots : List Nat) (records : List α) :
    modifyEach change (slot :: slots) records =
      modifyEach change slots (records.modify slot change) := rfl

theorem length_modifyEach (change : α → α) (slots : List Nat) (records : List α) :
    (modifyEach change slots records).length = records.length := by
  induction slots generalizing records with
  | nil => rfl
  | cons slot slots ih => rw [modifyEach_cons, ih, List.length_modify]

/-- A slot is changed as often as it is listed. -/
theorem getElem?_modifyEach_iterate (change : α → α) (slots : List Nat) (records : List α)
    (slot : Nat) : (modifyEach change slots records)[slot]? =
      records[slot]?.map (change^[slots.count slot]) := by
  induction slots generalizing records with
  | nil => simp [modifyEach]
  | cons first slots ih =>
    rw [modifyEach_cons, ih]
    by_cases heq : first = slot
    · subst heq
      rw [List.getElem?_modify_eq, List.count_cons_self]
      cases records[first]? <;> rfl
    · rw [getElem?_modify_ne (Ne.symm heq), List.count_cons_of_ne heq]

/-- A slot may be listed more than once, so the change has to be idempotent. -/
theorem getElem?_modifyEach (hidem : ∀ a, change (change a) = change a) (slots : List Nat)
    (records : List α) (slot : Nat) : (modifyEach change slots records)[slot]? =
      if slot ∈ slots then records[slot]?.map change else records[slot]? := by
  induction slots generalizing records with
  | nil => simp [modifyEach]
  | cons first slots ih =>
    rw [modifyEach_cons, ih]
    by_cases heq : slot = first
    · subst heq
      cases hrecord : records[slot]? with
      | none => simp [hrecord]
      | some record => simp [hrecord, hidem]
    · simp [heq, Ne.symm heq]

/-! ## Relations between slots -/

variable {r : α → α → Prop} {before after : List α}

theorem forall₂_of_getElem? (hlength : before.length = after.length)
    (hslots : ∀ (slot : Nat) a b, before[slot]? = some a → after[slot]? = some b → r a b) :
    List.Forall₂ r before after := by
  refine List.forall₂_iff_get.mpr ⟨hlength, fun slot hbefore hafter => ?_⟩
  exact hslots slot _ _ (by simp [hbefore]) (by simp [hafter])

section

variable (hrel : List.Forall₂ r before after)
include hrel

theorem forall₂_getElem?_left (hslot : before[slot]? = some a) :
    ∃ b, after[slot]? = some b ∧ r a b := by
  obtain ⟨hlt, rfl⟩ := List.getElem?_eq_some_iff.mp hslot
  obtain ⟨hlength, hget⟩ := List.forall₂_iff_get.mp hrel
  exact ⟨after[slot], by simp, hget slot hlt (hlength ▸ hlt)⟩

theorem forall₂_getElem?_right (hslot : after[slot]? = some b) :
    ∃ a, before[slot]? = some a ∧ r a b := by
  obtain ⟨hlt, rfl⟩ := List.getElem?_eq_some_iff.mp hslot
  obtain ⟨hlength, hget⟩ := List.forall₂_iff_get.mp hrel
  exact ⟨before[slot], by simp, hget slot (hlength ▸ hlt) hlt⟩

theorem forall_mem_of_forall₂
    (hkeep : ∀ a b, r a b → p a → p b) (hbefore : ∀ a ∈ before, p a) : ∀ b ∈ after, p b := by
  intro b hb
  obtain ⟨slot, hslot⟩ := List.mem_iff_getElem?.mp hb
  obtain ⟨a, ha, hab⟩ := forall₂_getElem?_right hrel hslot
  exact hkeep a b hab (hbefore a (List.mem_of_getElem? ha))

theorem countP_eq_of_forall₂ {p : α → Bool}
    (hkeep : ∀ a b, r a b → p b = p a) : after.countP p = before.countP p := by
  induction hrel with
  | nil => rfl
  | cons hab _ ih => simp only [List.countP_cons, ih, hkeep _ _ hab]

end

/-- One change relates the records of its slot, and leaves the others alone. -/
theorem forall₂_modify (hrefl : ∀ a, r a a)
    (hchange : ∀ a, before[slot]? = some a → r a (change a)) :
    List.Forall₂ r before (before.modify slot change) := by
  apply forall₂_of_getElem? (List.length_modify ..).symm
  intro other a b hold hnew
  rcases getElem?_modify_cases hnew with ⟨_, hsame⟩ | ⟨record, rfl, hrecord, rfl⟩
  · cases hold.symm.trans hsame
    exact hrefl a
  · cases hold.symm.trans hrecord
    exact hchange a hold

theorem forall₂_modifyEach (hrefl : ∀ a, r a a) {slots : List Nat}
    (hidem : ∀ a, change (change a) = change a)
    (hchange : ∀ slot ∈ slots, ∀ a, before[slot]? = some a → r a (change a)) :
    List.Forall₂ r before (modifyEach change slots before) := by
  apply forall₂_of_getElem? (length_modifyEach ..).symm
  intro slot a b hold hnew
  rw [getElem?_modifyEach hidem, hold] at hnew
  by_cases hmem : slot ∈ slots
  · rw [if_pos hmem] at hnew
    cases hnew
    exact hchange slot hmem a hold
  · rw [if_neg hmem] at hnew
    cases hnew
    exact hrefl a

end Kitex.Container
