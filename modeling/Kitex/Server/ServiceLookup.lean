import Kitex.Server.Services
import Mathlib.Data.List.Induction

/-! # Lookups of services by method

`check` refuses the services of a server if a method of several of them is not a method of the
fallback service. For services it accepts, it does not matter in which order they are registered or
the maps iterated.
-/

namespace Kitex.Server.Services

/-! ## Registrations -/

/-- The services have different names, and at most one is the fallback service. -/
structure Distinct (regs : List Registration) : Prop where
  names : (regs.map (·.svcInfo.serviceName)).Nodup
  fallback : ∀ a ∈ regs, ∀ b ∈ regs, a.isFallback = true → b.isFallback = true → a = b

def registered (unknown : Option (List ServiceInfo)) (regs : List Registration) : Services where
  knownSvcMap := regs.map Registration.svcInfo
  fallbackSvc := (regs.find? Registration.isFallback).map Registration.svcInfo
  nonFallbackSvcs := (regs.filter fun r => !r.isFallback).map Registration.svcInfo
  unknownSvc := unknown

section Registered

variable {unknown : Option (List ServiceInfo)} {regs : List Registration} {svc : ServiceInfo}
  {s : Services} {methodName : String} {r : Registration} {name : String}

theorem known_registered_eq_none : (registered unknown regs).known name = none ↔
    name ∉ regs.map (·.svcInfo.serviceName) := by
  simp [known, registered]

open Registration

theorem register_registered (hnew : r.svcInfo.serviceName ∉ regs.map (·.svcInfo.serviceName))
    (hnone : r.isFallback = true → regs.find? isFallback = none) :
    (registered unknown regs).register r = .ok (registered unknown (regs ++ [r])) := by
  replace hnew := (@known_registered_eq_none unknown regs _).mpr hnew
  unfold register addService
  cases hr : r.isFallback with
  | false =>
    simp only [hnew]
    simp [hr, registered]
  | true =>
    have hfallback : (registered unknown regs).fallbackSvc = none := by
      simp [registered, hnone hr]
    simp only [hnew, hfallback]
    simp [hr, registered, hnone hr]

theorem foldlM_register (h : Distinct regs) :
    regs.foldlM register { unknownSvc := unknown } = .ok (registered unknown regs) := by
  induction regs using List.reverseRecOn with
  | nil => rfl
  | append_singleton regs r ih =>
    have hnames := h.names
    rw [List.map_append, List.nodup_append] at hnames
    have hnew : r.svcInfo.serviceName ∉ regs.map (·.svcInfo.serviceName) :=
      fun hmem => hnames.2.2 _ hmem _ (by simp) rfl
    rw [List.foldlM_append, ih ⟨hnames.1, fun a ha b hb =>
      h.fallback a (List.mem_append_left _ ha) b (List.mem_append_left _ hb)⟩]
    change List.foldlM register (registered unknown regs) [r] = _
    rw [List.foldlM_cons, register_registered hnew]
    · rfl
    intro hr
    refine List.find?_eq_none.mpr fun other hother hfallback => hnew ?_
    rw [← h.fallback other (by simp [hother]) r (by simp) hfallback hr]
    exact List.mem_map_of_mem hother

theorem countP_le_one_iff {α : Type*} {l : List α} (hnodup : l.Nodup) (p : α → Bool) :
    l.countP p ≤ 1 ↔ ∀ a ∈ l, ∀ b ∈ l, p a = true → p b = true → a = b := by
  induction l with
  | nil => simp
  | cons x l ih =>
    obtain ⟨hx, hl⟩ := List.nodup_cons.mp hnodup
    rw [List.countP_cons]
    cases hpx : p x
    · simp only [Bool.false_eq_true, if_false, Nat.add_zero, ih hl]
      grind
    · have hzero : l.countP p + 1 ≤ 1 ↔ ∀ a ∈ l, ¬ p a = true := by
        rw [← List.countP_eq_zero]
        omega
      simp only [if_true, hzero]
      grind

theorem fallbackSvc_registered (h : Distinct regs) : (registered unknown regs).fallbackSvc
    = some svc ↔
      ∃ f ∈ regs, f.isFallback = true ∧ f.svcInfo = svc := by
  simp only [registered, Option.map_eq_some_iff]
  constructor
  · rintro ⟨f, hfind, hsvc⟩
    exact ⟨f, List.mem_of_find?_eq_some hfind, List.find?_some hfind, hsvc⟩
  · rintro ⟨f, hf, hfallback, hsvc⟩
    obtain ⟨f', hfind⟩ := Option.isSome_iff_exists.mp (List.find?_isSome.mpr ⟨f, hf, hfallback⟩)
    have hfallback' := List.find?_some hfind
    rw [← h.fallback f hf f' (List.mem_of_find?_eq_some hfind) hfallback hfallback'] at hfind
    exact ⟨f, hfind, hsvc⟩

theorem isFallbackSvc_registered (h : Distinct regs) (hr : r ∈ regs) :
    (registered unknown regs).isFallbackSvc r.svcInfo = r.isFallback := by
  rw [Bool.eq_iff_iff]
  simp only [isFallbackSvc, Option.any_eq_true, fallbackSvc_registered h, beq_iff_eq]
  constructor
  · rintro ⟨-, ⟨f, hf, hfallback, rfl⟩, hname⟩
    rwa [← List.inj_on_of_nodup_map h.names hf hr hname]
  · exact fun hfallback => ⟨_, ⟨r, hr, hfallback, rfl⟩, rfl⟩

/-- The fallback service and the others are all the services. -/
theorem perm_registered (h : Distinct regs) :
    ((registered unknown regs).fallbackSvc.toList ++
      (registered unknown regs).nonFallbackSvcs).Perm (regs.map svcInfo) := by
  have hone : (regs.filter isFallback).length ≤ 1 := by
    rw [← List.countP_eq_length_filter, countP_le_one_iff (List.Nodup.of_map _ h.names)]
    exact h.fallback
  have hfallback : (regs.find? isFallback).toList =
      regs.filter isFallback := by
    rw [← List.head?_filter]
    match regs.filter isFallback, hone with
    | [], _ => rfl
    | [f], _ => rfl
  rw [registered, Option.toList_map, hfallback, ← List.map_append]
  exact (List.filter_append_perm _ regs).map _

/-! ## Conflicts -/

/-- What a service does to the number of a method it has. -/
def bump (fallback : Bool) (num : Int) : Int :=
  if fallback then -1 else if 0 ≤ num then num + 1 else num

def number (counts : MethodCounts) (method : String) : Int := (counts.lookup method).getD 0

theorem number_countMethod (fallback : Bool) (counts : MethodCounts) (method name : String) :
    number (countMethod fallback counts method) name =
      if name = method then bump fallback (number counts name) else number counts name := by
  by_cases hname : name = method
  · subst hname
    unfold countMethod bump number
    cases fallback
    · by_cases hnum : 0 ≤ (counts.lookup name).getD 0 <;> simp [hnum]
    · simp
  · rw [if_neg hname]
    unfold countMethod number
    cases fallback
    · by_cases hnum : 0 ≤ (counts.lookup method).getD 0 <;>
        simp [hnum, AList.lookup_insert_ne hname]
    · simp [AList.lookup_insert_ne hname]

theorem number_foldl_countMethod (fallback : Bool) {methods : List String}
    (hnodup : methods.Nodup) (counts : MethodCounts) (name : String) :
    number (methods.foldl (countMethod fallback) counts) name =
      if methods.contains name then bump fallback (number counts name)
      else number counts name := by
  induction methods generalizing counts with
  | nil => simp
  | cons method methods ih =>
    rw [List.nodup_cons] at hnodup
    rw [List.foldl_cons, ih hnodup.2, number_countMethod]
    by_cases hname : name = method
    · subst hname
      simp [hnodup.1]
    · simp [hname]

/-- The sentinel stays, wherever the fallback service comes. -/
theorem number_foldl_countMethods (it : s.Iteration) (svcs : List ServiceInfo) (name : String) :
    number (svcs.foldl (countMethods it) ∅) name =
      if svcs.any fun svc => s.isFallbackSvc svc && svc.methods.contains name then (-1 : Int)
      else svcs.countP fun svc => svc.methods.contains name := by
  induction svcs using List.reverseRecOn with
  | nil => rfl
  | append_singleton svcs svc ih =>
    have hcontains : (it.methods svc).contains name = svc.methods.contains name :=
      Bool.eq_iff_iff.mpr (by simp [(it.methods_perm svc).mem_iff])
    have hnodup := (it.methods_perm svc).nodup_iff.mpr svc.nodup
    rw [List.foldl_append, List.foldl_cons, List.foldl_nil, countMethods,
      number_foldl_countMethod _ hnodup, ih, hcontains, List.any_append, List.countP_append]
    simp only [List.any_cons, List.any_nil, List.countP_singleton]
    generalize (svcs.any fun svc => s.isFallbackSvc svc && svc.methods.contains name) = found
    cases svc.methods.contains name <;> cases s.isFallbackSvc svc <;> cases found <;>
      simp [bump]

theorem check_isOk_iff (it : s.Iteration)
    (hsome : ¬ (s.knownSvcMap.isEmpty && s.unknownSvc.isNone) = true)
    (hgenerated : ∀ svc ∈ s.knownSvcMap, svc.Generated) :
    (s.check it false = .ok s ↔ ∀ name, number (fallbackCheckingMap it) name ≤ 1) ∧
      ∀ next, s.check it false = .ok next → next = s := by
  have hspecial : (it.svcs.find? fun svc =>
      svc.serviceName == ServiceInfo.genericService || svc.combineService) = none := by
    refine List.find?_eq_none.mpr fun svc hsvc => ?_
    have h := hgenerated svc (it.svcs_perm.mem_iff.mp hsvc)
    simp [h.combineService_eq, h.serviceName_ne]
  unfold check
  rw [if_neg hsome]
  simp only [hspecial]
  cases hconflict : (it.conflicts (fallbackCheckingMap it).entries).find? (1 < ·.2) with
  | some entry =>
    have hentry := (it.conflicts_perm _).mem_iff.mp (List.mem_of_find?_eq_some hconflict)
    have hlookup : (fallbackCheckingMap it).lookup entry.1 = some entry.2 :=
      AList.mem_lookup_iff.mpr hentry
    have hnum := List.find?_some hconflict
    refine ⟨⟨fun h => by simp at h, fun hall => ?_⟩, fun next h => by simp at h⟩
    have hle := hall entry.1
    rw [number, hlookup] at hle
    simp only [Option.getD_some, decide_eq_true_eq] at hle hnum
    omega
  | none =>
    refine ⟨⟨fun _ name => ?_, fun _ => rfl⟩, fun next h => by simpa using h.symm⟩
    rw [number]
    cases hlookup : (fallbackCheckingMap it).lookup name with
    | none => simp
    | some num =>
      have hnum := List.find?_eq_none.mp hconflict ⟨name, num⟩
        ((it.conflicts_perm _).mem_iff.mpr (AList.mem_lookup_iff.mp hlookup))
      simpa using hnum

/-- Every method that two services share is a method of the fallback service. -/
def SharedByFallback (regs : List Registration) : Prop :=
  ∀ a ∈ regs, ∀ b ∈ regs, a ≠ b → ∀ method ∈ a.svcInfo.methods, method ∈ b.svcInfo.methods →
    ∃ f ∈ regs, f.isFallback = true ∧ method ∈ f.svcInfo.methods

theorem number_le_one_iff (h : Distinct regs) (it : (registered unknown regs).Iteration) :
    (∀ name, number (fallbackCheckingMap it) name ≤ 1) ↔ SharedByFallback regs := by
  have hmem : ∀ svc, svc ∈ it.counted ↔ ∃ r ∈ regs, r.svcInfo = svc := fun svc => by
    rw [it.counted_perm.mem_iff]
    exact List.mem_map
  have hany : ∀ name, (it.counted.any fun svc =>
      (registered unknown regs).isFallbackSvc svc && svc.methods.contains name) = true ↔
        ∃ f ∈ regs, f.isFallback = true ∧ name ∈ f.svcInfo.methods := by
    intro name
    simp only [List.any_eq_true, hmem, Bool.and_eq_true, List.contains_iff_mem]
    constructor
    · rintro ⟨-, ⟨f, hf, rfl⟩, hfallback, hname⟩
      exact ⟨f, hf, isFallbackSvc_registered h hf ▸ hfallback, hname⟩
    · rintro ⟨f, hf, hfallback, hname⟩
      exact ⟨_, ⟨f, hf, rfl⟩, (isFallbackSvc_registered h hf).trans hfallback, hname⟩
  have hcount : ∀ name, (it.counted.countP fun svc => svc.methods.contains name) ≤ 1 ↔
      ∀ a ∈ regs, ∀ b ∈ regs, name ∈ a.svcInfo.methods → name ∈ b.svcInfo.methods → a = b := by
    intro name
    have hcountP := it.counted_perm.countP_eq fun svc => svc.methods.contains name
    rw [hcountP, registered, List.countP_map, countP_le_one_iff (List.Nodup.of_map _ h.names)]
    simp only [Function.comp_apply, List.contains_iff_mem]
  simp only [fallbackCheckingMap, number_foldl_countMethods]
  constructor
  · intro hle a ha b hb hne method hmethod hmethod'
    by_contra hnot
    have hone := hle method
    rw [if_neg ((hany method).not.mpr hnot)] at hone
    exact hne ((hcount method).mp (Int.ofNat_le.mp hone) a ha b hb hmethod hmethod')
  · intro hshared name
    split_ifs with hfound
    · decide
    refine Int.ofNat_le.mpr ((hcount name).mpr ?_)
    intro a ha b hb hname hname'
    by_contra hne
    exact hfound ((hany name).mpr (hshared a ha b hb hne name hname hname'))

/-! ## Lookups -/

/-- The services that have a method, the fallback service first. -/
def candidates (s : Services) (methodName : String) : List ServiceInfo :=
  (s.fallbackSvc.toList ++ s.nonFallbackSvcs).filter (ServiceInfo.hasMethod methodName)

theorem searchUnique_eq (svcs : List ServiceInfo) (unique : Option ServiceInfo) :
    searchUnique methodName unique svcs = some svc ↔
      unique.toList ++ svcs.filter (ServiceInfo.hasMethod methodName) = [svc] := by
  induction svcs generalizing unique with
  | nil => cases unique <;> simp [searchUnique]
  | cons first svcs ih =>
    cases unique <;> simp only [searchUnique, List.filter_cons] <;> split_ifs
    · exact ih (some first)
    · exact ih none
    · simp
    · exact ih (some _)

theorem searchUniqueByMethodName_eq :
    s.searchUniqueByMethodName methodName = some svc ↔ s.candidates methodName = [svc] := by
  rw [searchUniqueByMethodName, searchUnique_eq, candidates, List.filter_append]
  cases s.fallbackSvc <;> simp [Option.filter, List.filter_cons]
  split_ifs <;> simp

theorem searchByMethodName_eq :
    s.searchByMethodName methodName = (s.candidates methodName).head? := by
  rw [searchByMethodName, candidates, List.filter_append, ← List.head?_filter]
  cases s.fallbackSvc <;> simp [Option.filter, List.filter_cons]
  split_ifs <;> simp

variable (hgenerated : ∀ r ∈ regs, r.svcInfo.Generated) {method : String}

include hgenerated in
theorem candidates_perm (h : Distinct regs) : ((registered unknown regs).candidates method).Perm
    ((regs.filter fun r => r.svcInfo.methods.contains method).map svcInfo) := by
  have hperm := (@perm_registered unknown regs h).filter (ServiceInfo.hasMethod method)
  rw [List.filter_map] at hperm
  refine hperm.trans (List.Perm.of_eq (congrArg _ (List.filter_congr fun r hr => ?_)))
  rw [Bool.eq_iff_iff, List.contains_iff_mem]
  exact (hgenerated r hr).hasMethod_iff

/-- The service is the only one that has the method. -/
def OnlyOne (regs : List Registration) (method : String) (r : Registration) : Prop :=
  ∀ r' ∈ regs, method ∈ r'.svcInfo.methods → r' = r

theorem filter_eq_singleton_iff (hnodup : regs.Nodup) :
    (regs.filter fun r => r.svcInfo.methods.contains method) = [r] ↔
      r ∈ regs ∧ method ∈ r.svcInfo.methods ∧ OnlyOne regs method r := by
  rw [← List.perm_singleton, List.perm_ext_iff_of_nodup (hnodup.filter _) (List.nodup_singleton r)]
  simp only [List.mem_filter, List.contains_iff_mem, List.mem_singleton, OnlyOne]
  constructor
  · intro hiff
    obtain ⟨hr, hmethod⟩ := (hiff r).mpr rfl
    exact ⟨hr, hmethod, fun r' hr' hmethod' => (hiff r').mp ⟨hr', hmethod'⟩⟩
  · rintro ⟨hr, hmethod, honly⟩ r'
    exact ⟨fun h => honly r' h.1 h.2, fun heq => heq ▸ ⟨hr, hmethod⟩⟩

include hgenerated in
theorem searchUniqueByMethodName_iff (h : Distinct regs) :
    (registered unknown regs).searchUniqueByMethodName method = some svc ↔
      ∃ r ∈ regs, r.svcInfo = svc ∧ method ∈ r.svcInfo.methods ∧ OnlyOne regs method r := by
  have hperm := @candidates_perm unknown regs hgenerated method h
  have hsingle : ∀ svcs : List ServiceInfo, svcs = [svc] ↔ svcs.Perm [svc] :=
    fun _ => List.perm_singleton.symm
  rw [searchUniqueByMethodName_eq, hsingle, hperm.congr_left, ← hsingle, List.map_eq_singleton_iff]
  simp only [filter_eq_singleton_iff (List.Nodup.of_map _ h.names)]
  grind

include hgenerated in
theorem searchByMethodName_iff (h : Distinct regs) (hshared : SharedByFallback regs) :
    (registered unknown regs).searchByMethodName method = some svc ↔
      ∃ r ∈ regs, r.svcInfo = svc ∧ method ∈ r.svcInfo.methods ∧
        (r.isFallback = true ∨ OnlyOne regs method r) := by
  have hsound : ∀ {svc}, (registered unknown regs).searchByMethodName method = some svc →
      ∃ r ∈ regs, r.svcInfo = svc ∧ method ∈ r.svcInfo.methods ∧
        (r.isFallback = true ∨ OnlyOne regs method r) := by
    intro svc hfound
    rw [searchByMethodName, Option.or_eq_some_iff] at hfound
    rcases hfound with hfallback | ⟨hnone, hfind⟩
    · obtain ⟨hsvc, hmethod⟩ := Option.filter_eq_some_iff.mp hfallback
      obtain ⟨f, hf, hisFallback, rfl⟩ := (fallbackSvc_registered h).mp hsvc
      exact ⟨f, hf, rfl, (hgenerated f hf).hasMethod_iff.mp hmethod, .inl hisFallback⟩
    · obtain ⟨r, hr, rfl⟩ := List.mem_map.mp (List.mem_of_find?_eq_some hfind)
      have hregs := List.mem_of_mem_filter hr
      have hmethod := (hgenerated r hregs).hasMethod_iff.mp (List.find?_some hfind)
      refine ⟨r, hregs, rfl, hmethod, .inr fun r' hr' hmethod' => ?_⟩
      by_contra hne
      obtain ⟨f, hf, hisFallback, hfmethod⟩ := hshared r' hr' r hregs hne method hmethod' hmethod
      rw [Option.filter_eq_none_iff] at hnone
      exact hnone _ ((fallbackSvc_registered h).mpr ⟨f, hf, hisFallback, rfl⟩)
        ((hgenerated f hf).hasMethod_iff.mpr hfmethod)
  refine ⟨hsound, ?_⟩
  rintro ⟨r, hr, rfl, hmethod, hchosen⟩
  cases hfound : (registered unknown regs).searchByMethodName method with
  | none =>
    rw [searchByMethodName_eq, List.head?_eq_none_iff] at hfound
    have hmem := (@candidates_perm unknown regs hgenerated method h).mem_iff.mpr
      (List.mem_map_of_mem (List.mem_filter.mpr ⟨hr, List.contains_iff_mem.mpr hmethod⟩))
    rw [hfound] at hmem
    cases hmem
  | some svc =>
    obtain ⟨r', hr', rfl, hmethod', hchosen'⟩ := hsound hfound
    have heq : r' = r := by
      rcases hchosen with hfallback | honly
      · rcases hchosen' with hfallback' | honly'
        · exact h.fallback r' hr' r hr hfallback' hfallback
        · exact (honly' r hr hmethod).symm
      · exact honly r' hr' hmethod'
    rw [heq]

/-- Without a handler of unknown services, what is found by method is the result. -/
theorem searchService_registered {codecType : PayloadCodec} (hunknown : unknown = none)
    (hnew : name ≠ "" → (registered unknown regs).known name = none) :
    (registered unknown regs).searchService name method false codecType =
      .ok (if name = "" then (registered unknown regs).searchByMethodName method
        else (registered unknown regs).searchUniqueByMethodName method,
        registered unknown regs) := by
  unfold searchService
  by_cases hname : name = ""
  · simp only [hname, registered, Bool.or_self, Bool.false_eq_true, if_false, if_true,
      Option.none_or]
    split <;> simp_all
  · rw [hnew hname]
    simp only [hname, registered, Bool.or_self, Bool.false_eq_true, if_false, Option.none_or]
    split <;> simp_all

/-- For generated code, `check` accepts services if and only if the fallback service has every
method that two of them share. Then a method without a service name belongs to the fallback service
or to one service only, and with an unknown name to one service only. -/
theorem check_search_of_register (h : Distinct regs)
    (hgenerated : ∀ r ∈ regs, r.svcInfo.Generated) (hsome : regs ≠ [] ∨ unknown.isSome = true) :
    ∃ s, regs.foldlM register { unknownSvc := unknown } = .ok s ∧ ∀ it : s.Iteration,
      ((∃ next, s.check it false = .ok next) ↔ SharedByFallback regs) ∧
        ∀ next, s.check it false = .ok next → unknown = none → ∀ method codecType,
          (∃ found, next.searchService "" method false codecType = .ok (found, next) ∧
            ∀ svc, found = some svc ↔ ∃ r ∈ regs, r.svcInfo = svc ∧
              method ∈ r.svcInfo.methods ∧ (r.isFallback = true ∨ OnlyOne regs method r)) ∧
          ∀ name, name ≠ "" → (∀ r ∈ regs, r.svcInfo.serviceName ≠ name) →
            ∃ found, next.searchService name method false codecType = .ok (found, next) ∧
              ∀ svc, found = some svc ↔ ∃ r ∈ regs, r.svcInfo = svc ∧
                method ∈ r.svcInfo.methods ∧ OnlyOne regs method r := by
  refine ⟨_, foldlM_register h, fun it => ?_⟩
  have hknown : ∀ svc ∈ (registered unknown regs).knownSvcMap, svc.Generated := by
    intro svc hsvc
    obtain ⟨r, hr, rfl⟩ := List.mem_map.mp hsvc
    exact hgenerated r hr
  have hnonempty : ¬ ((registered unknown regs).knownSvcMap.isEmpty &&
      (registered unknown regs).unknownSvc.isNone) = true := by
    rcases hsome with hregs | hunknown
    · simp [registered, hregs]
    · simp [registered, Option.isSome_iff_ne_none.mp hunknown]
  obtain ⟨haccept, hsame⟩ := check_isOk_iff it hnonempty hknown
  rw [number_le_one_iff h] at haccept
  refine ⟨⟨fun ⟨next, hnext⟩ => haccept.mp (hsame next hnext ▸ hnext),
    fun hshared => ⟨_, haccept.mpr hshared⟩⟩, ?_⟩
  intro next hnext hunknown method codecType
  cases hsame next hnext
  have hshared := haccept.mp hnext
  refine ⟨⟨(registered unknown regs).searchByMethodName method, ?_, fun svc =>
    searchByMethodName_iff hgenerated h hshared⟩, fun name hname hnew =>
    ⟨(registered unknown regs).searchUniqueByMethodName method, ?_, fun svc =>
      searchUniqueByMethodName_iff hgenerated h⟩⟩
  · rw [searchService_registered hunknown (absurd rfl), if_pos rfl]
  · rw [searchService_registered hunknown fun _ =>
      known_registered_eq_none.mpr (by simpa using hnew), if_neg hname]

/-- The service `Echo` shares its method with the fallback service, which gets the request. -/
theorem check_search_of_register_fallback :
    let echo : ServiceInfo := { serviceName := "Echo", methods := ["echo"], nodup := by decide }
    let all : ServiceInfo :=
      { serviceName := "All", methods := ["echo", "ping"], nodup := by decide }
    ∃ s, [⟨echo, false⟩, ⟨all, true⟩].foldlM register { unknownSvc := none } = .ok s ∧
      ∀ it : s.Iteration, ∃ next, s.check it false = .ok next ∧
        next.searchService "" "echo" false .thrift = .ok (some all, next) := by
  intro echo all
  have hdistinct : Distinct [⟨echo, false⟩, ⟨all, true⟩] := ⟨by decide, by simp⟩
  have hgenerated : ∀ r ∈ [Registration.mk echo false, ⟨all, true⟩], r.svcInfo.Generated := by
    simp only [List.forall_mem_cons]
    exact ⟨⟨fun _ => rfl, rfl, by decide⟩, ⟨fun _ => rfl, rfl, by decide⟩, by simp⟩
  have hshared : SharedByFallback [⟨echo, false⟩, ⟨all, true⟩] := by
    intro a ha b hb hne method hmethod hmethod'
    simp only [List.mem_cons, List.not_mem_nil, or_false] at ha hb
    refine ⟨⟨all, true⟩, by simp, rfl, ?_⟩
    rcases ha with rfl | rfl
    · rcases hb with rfl | rfl
      · exact absurd rfl hne
      · exact hmethod'
    · exact hmethod
  obtain ⟨s, hs, hall⟩ := @check_search_of_register none _ hdistinct hgenerated (.inl (by simp))
  refine ⟨s, hs, fun it => ?_⟩
  obtain ⟨next, hnext⟩ := (hall it).1.mpr hshared
  obtain ⟨⟨found, hfound, hiff⟩, -⟩ := (hall it).2 next hnext rfl "echo" .thrift
  have hsome := (hiff all).mpr ⟨⟨all, true⟩, by simp, rfl, by simp [all], .inl rfl⟩
  exact ⟨next, hnext, hsome ▸ hfound⟩

/-- No service is refused, and so is a combine service that shares nothing with the other one. Where
nameless traffic is refused, services that share a method are accepted without a fallback. -/
theorem check_refuses_none_and_combine :
    (∀ it : newServices.Iteration, newServices.check it false =
      .error "run: no service. Use RegisterService to set one") ∧ SharedByFallback [] ∧
    let echo : ServiceInfo := { serviceName := "Echo", methods := ["echo"], nodup := by decide }
    let combine : ServiceInfo :=
      { serviceName := "CombineService", methods := [], nodup := by decide, combineService := true }
    SharedByFallback [⟨echo, false⟩, ⟨combine, false⟩] ∧
    ∃ s, [⟨echo, false⟩, ⟨combine, false⟩].foldlM register newServices = .ok s ∧
      (∀ it : s.Iteration, s.check it false =
        .error "combine service doesn't support multi services") ∧
    let other : ServiceInfo := { echo with serviceName := "Other" }
    ¬ SharedByFallback [⟨echo, false⟩, ⟨other, false⟩] ∧
    ∃ s, [⟨echo, false⟩, ⟨other, false⟩].foldlM register newServices = .ok s ∧
      ∀ it : s.Iteration, s.check it true =
        .ok { s with refuseTrafficWithoutServiceName := true } := by
  refine ⟨fun it => rfl, by simp [SharedByFallback], by simp [SharedByFallback], _, rfl,
    fun it => ?_, by simp [SharedByFallback], _, rfl, fun it => ?_⟩
  rotate_left
  · unfold check
    have hnone : (it.svcs.find? fun svc =>
        svc.serviceName == ServiceInfo.genericService || svc.combineService) = none := by
      refine List.find?_eq_none.mpr fun svc hsvc => ?_
      rcases it.svcs_perm.mem_iff.mp hsvc with _ | ⟨_, _ | ⟨_, ⟨⟩⟩⟩ <;> decide
    rw [hnone]
    rfl
  unfold check
  cases hfind : it.svcs.find? fun svc =>
      svc.serviceName == ServiceInfo.genericService || svc.combineService with
  | none =>
    have hcombine := List.find?_eq_none.mp hfind _ (it.svcs_perm.mem_iff.mpr (.tail _ (.head _)))
    exact absurd rfl hcombine
  | some svc =>
    have hsvc := it.svcs_perm.mem_iff.mp (List.mem_of_find?_eq_some hfind)
    have hspecial := List.find?_some hfind
    cases hsvc with
    | head => exact absurd hspecial (by decide)
    | tail _ hsvc =>
      cases hsvc with
      | head => rfl
      | tail _ hsvc => cases hsvc

end Registered

end Kitex.Server.Services
