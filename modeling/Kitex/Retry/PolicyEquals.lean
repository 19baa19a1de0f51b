import Kitex.Retry.Container

/-! # Equality of retry policies

`Equals` compares policies field by field. The functions in `ShouldResultRetry`
are left out, since a remote policy has none. The items of the backoff policies
are compared for the keys of one side only, and an item that is missing reads as
zero: a policy with a zero equals one with another item in its place, so the
relation is neither symmetric nor transitive.
-/

namespace Kitex.Retry

/-! ## Policies with all their fields -/

/-- `x == y`, which is false for NaN. -/
def Double.equals (x y : Double) : Bool :=
  decide (x = y ∧ x ≠ .nan)

structure StopConfig extends StopPolicy where
  maxDurationMS : UInt32 := 0
  disableChainStop : Bool := false
  ddlStop : Bool := false

/-- `BackOffPolicy` with the map of its items, which may be nil. -/
structure BackOffConfig where
  backOffType : BackOffType
  cfgItems : Option (AList fun _ : String => Double) := none

structure FailureConfig where
  stopPolicy : StopConfig
  backOffPolicy : Option BackOffConfig := none
  retrySameNode : Bool := false
  shouldResultRetry : Option ShouldResultRetry := none
  extra : String := ""

structure BackupConfig where
  retryDelayMS : UInt32
  stopPolicy : StopConfig
  retrySameNode : Bool := false

structure MixedConfig where
  retryDelayMS : UInt32
  failurePolicy : FailureConfig

structure PolicyConfig where
  enable : Bool
  type : RetryType
  failurePolicy : Option FailureConfig := none
  backupPolicy : Option BackupConfig := none
  mixedPolicy : Option MixedConfig := none

/-! ## Equality and copies -/

/-- `Equals` of pointers: nil equals nil only. -/
def equalsPointer {α : Type} (equals : α → α → Bool) : Option α → Option α → Bool
  | none, none => true
  | some p, some np => equals p np
  | none, some _ | some _, none => false

/-- `==` of the structures. -/
def StopConfig.equals (p np : StopConfig) : Bool :=
  p.maxRetryTimes = np.maxRetryTimes && p.errorRate.equals np.errorRate &&
    p.maxDurationMS = np.maxDurationMS && p.disableChainStop = np.disableChainStop &&
    p.ddlStop = np.ddlStop

/-- An item that is missing reads as zero. -/
def readItem (items : AList fun _ : String => Double) (k : String) : Double :=
  (items.lookup k).getD (.finite 0)

namespace BackOffConfig

/-- The items, of which a nil map has none. -/
def items (p : BackOffConfig) : AList fun _ : String => Double :=
  p.cfgItems.getD ∅

def item (p : BackOffConfig) (k : String) : Double :=
  readItem p.items k

def equals (p np : BackOffConfig) : Bool :=
  p.backOffType = np.backOffType && p.items.keys.length = np.items.keys.length &&
    p.items.keys.all fun k => (p.item k).equals (np.item k)

def deepCopy (p : BackOffConfig) : BackOffConfig where
  backOffType := p.backOffType
  cfgItems := p.cfgItems.map fun items =>
    items.entries.foldr (fun e copied => copied.insert e.1 e.2) ∅

end BackOffConfig

def FailureConfig.equals (p np : FailureConfig) : Bool :=
  p.stopPolicy.equals np.stopPolicy &&
    equalsPointer BackOffConfig.equals p.backOffPolicy np.backOffPolicy &&
    p.retrySameNode = np.retrySameNode && p.extra = np.extra

def FailureConfig.deepCopy (p : FailureConfig) : FailureConfig :=
  { p with backOffPolicy := p.backOffPolicy.map BackOffConfig.deepCopy }

def BackupConfig.equals (p np : BackupConfig) : Bool :=
  p.retryDelayMS = np.retryDelayMS && p.stopPolicy.equals np.stopPolicy &&
    p.retrySameNode = np.retrySameNode

def MixedConfig.equals (p np : MixedConfig) : Bool :=
  p.retryDelayMS = np.retryDelayMS && p.failurePolicy.equals np.failurePolicy

def MixedConfig.deepCopy (p : MixedConfig) : MixedConfig :=
  { p with failurePolicy := p.failurePolicy.deepCopy }

def PolicyConfig.equals (p np : PolicyConfig) : Bool :=
  p.enable = np.enable && p.type = np.type &&
    equalsPointer FailureConfig.equals p.failurePolicy np.failurePolicy &&
    equalsPointer BackupConfig.equals p.backupPolicy np.backupPolicy &&
    equalsPointer MixedConfig.equals p.mixedPolicy np.mixedPolicy

def PolicyConfig.deepCopy (p : PolicyConfig) : PolicyConfig :=
  { p with
    failurePolicy := p.failurePolicy.map FailureConfig.deepCopy
    mixedPolicy := p.mixedPolicy.map MixedConfig.deepCopy }

/-! ## What the retryers read -/

def BackOffConfig.toPolicy (p : BackOffConfig) : BackOffPolicy where
  backOffType := p.backOffType
  cfgItems := p.cfgItems.map fun _ => fun
    | .fixMS => p.item "fix_ms"
    | .minMS => p.item "min_ms"
    | .maxMS => p.item "max_ms"

def FailureConfig.toPolicy (p : FailureConfig) : FailurePolicy where
  stopPolicy := p.stopPolicy.toStopPolicy
  backOffPolicy := p.backOffPolicy.map BackOffConfig.toPolicy
  shouldResultRetry := p.shouldResultRetry

/-- The policy that a retryer is built from. -/
def PolicyConfig.toPolicy (p : PolicyConfig) : RetryPolicy where
  enable := p.enable
  type := p.type
  failurePolicy := p.failurePolicy.map FailureConfig.toPolicy
  mixedPolicy := p.mixedPolicy.map fun mp => ⟨mp.retryDelayMS, mp.failurePolicy.toPolicy⟩
  backupPolicy := p.backupPolicy.map fun bp => ⟨bp.retryDelayMS, bp.stopPolicy.toStopPolicy⟩

/-- The limits of the calls that the retryers take from the policy as they are: the
duration, the two stops and the choice of the node. -/
def StopConfig.limits (p : StopConfig) (retrySameNode : Bool) : UInt32 × Bool × Bool × Bool :=
  (p.maxDurationMS, p.disableChainStop, p.ddlStop, retrySameNode)

def FailureConfig.limits (p : FailureConfig) : UInt32 × Bool × Bool × Bool :=
  p.stopPolicy.limits p.retrySameNode

def PolicyConfig.limits (p : PolicyConfig) : List (Option (UInt32 × Bool × Bool × Bool)) :=
  [p.failurePolicy.map FailureConfig.limits,
    p.backupPolicy.map fun bp => bp.stopPolicy.limits bp.retrySameNode,
    p.mixedPolicy.map fun mp => mp.failurePolicy.limits]

/-! ## Items -/

/-- How `Equals` compares the items: by their number and for the keys of one side. -/
def Agree (xs ys : AList fun _ : String => Double) : Prop :=
  xs.keys.length = ys.keys.length ∧
    ∀ k ∈ xs.keys, readItem xs k = readItem ys k ∧ readItem xs k ≠ .nan

namespace Agree

variable {xs ys zs : AList fun _ : String => Double}

theorem readItem_missing {k : String} (hk : k ∉ xs.keys) : readItem xs k = .finite 0 := by
  rw [readItem, AList.lookup_eq_none.mpr hk, Option.getD_none]

theorem self_iff : Agree xs xs ↔ ∀ k ∈ xs.keys, readItem xs k ≠ .nan :=
  ⟨fun h k hk => (h.2 k hk).2, fun h => ⟨rfl, fun k hk => ⟨rfl, h k hk⟩⟩⟩

theorem symm_iff (h : Agree xs ys) :
    Agree ys xs ↔ ∀ k ∈ ys.keys, k ∉ xs.keys → readItem ys k = .finite 0 := by
  refine ⟨fun hsymm k hk hmissing => ?_, fun hzero => ⟨h.1.symm, fun k hk => ?_⟩⟩
  · rw [(hsymm.2 k hk).1, readItem_missing hmissing]
  · by_cases hmem : k ∈ xs.keys
    · obtain ⟨heq, hnan⟩ := h.2 k hmem
      exact ⟨heq.symm, heq ▸ hnan⟩
    · rw [hzero k hk hmem, readItem_missing hmem]
      exact ⟨rfl, nofun⟩

theorem trans_iff (h : Agree xs ys) (h' : Agree ys zs) :
    Agree xs zs ↔ ∀ k ∈ xs.keys, k ∉ ys.keys → readItem zs k = .finite 0 := by
  refine ⟨fun htrans k hk hmissing => ?_, fun hzero => ⟨h.1.trans h'.1, fun k hk => ?_⟩⟩
  · rw [← (htrans.2 k hk).1, (h.2 k hk).1, readItem_missing hmissing]
  · obtain ⟨heq, hnan⟩ := h.2 k hk
    refine ⟨heq.trans ?_, hnan⟩
    by_cases hmem : k ∈ ys.keys
    · exact (h'.2 k hmem).1
    · rw [hzero k hk hmem, readItem_missing hmem]

theorem readItem_eq (h : Agree xs ys) (h' : Agree ys xs) (k : String) :
    readItem xs k = readItem ys k := by
  by_cases hx : k ∈ xs.keys
  · exact (h.2 k hx).1
  by_cases hy : k ∈ ys.keys
  · exact (h'.2 k hy).1.symm
  · rw [readItem_missing hx, readItem_missing hy]

end Agree

/-! ## What `Equals` compares -/

/-- The fields that are compared as they are, and the type of the backoff. -/
def FailureConfig.frame (p : FailureConfig) : StopConfig × Option BackOffType × Bool × String :=
  (p.stopPolicy, p.backOffPolicy.map BackOffConfig.backOffType, p.retrySameNode, p.extra)

def FailureConfig.items (p : FailureConfig) : AList fun _ : String => Double :=
  (p.backOffPolicy.map BackOffConfig.items).getD ∅

namespace PolicyConfig

def frame (p : PolicyConfig) :=
  (p.enable, p.type, p.failurePolicy.map FailureConfig.frame, p.backupPolicy,
    p.mixedPolicy.map fun mp => (mp.retryDelayMS, mp.failurePolicy.frame))

/-- The error rates of the circuit breakers. -/
def errorRates (p : PolicyConfig) : List Double :=
  (p.failurePolicy.map fun fp => fp.stopPolicy.errorRate).toList ++
    (p.backupPolicy.map fun bp => bp.stopPolicy.errorRate).toList ++
    (p.mixedPolicy.map fun mp => mp.failurePolicy.stopPolicy.errorRate).toList

/-- The backoff items of the mixed policy, or else of the failure policy. -/
def items (p : PolicyConfig) (mixed : Bool) : AList fun _ : String => Double :=
  if mixed then (p.mixedPolicy.map fun mp => mp.failurePolicy.items).getD ∅
  else (p.failurePolicy.map FailureConfig.items).getD ∅

def NoNaN (p : PolicyConfig) : Prop :=
  .nan ∉ p.errorRates ∧ ∀ mixed, ∀ k ∈ (p.items mixed).keys, readItem (p.items mixed) k ≠ .nan

/-- The policy `q` reads zero under the keys that `p` has and `np` lacks. -/
def ZeroUnder (q p np : PolicyConfig) : Prop :=
  ∀ mixed, ∀ k ∈ (p.items mixed).keys, k ∉ (np.items mixed).keys →
    readItem (q.items mixed) k = .finite 0

end PolicyConfig

theorem Double.equals_iff (x y : Double) : x.equals y = true ↔ x = y ∧ x ≠ .nan :=
  decide_eq_true_iff

theorem StopConfig.equals_iff (p np : StopConfig) :
    p.equals np = true ↔ p = np ∧ p.errorRate ≠ .nan := by
  obtain ⟨⟨times, rate⟩, duration, chain, ddl⟩ := p
  obtain ⟨⟨times', rate'⟩, duration', chain', ddl'⟩ := np
  simp [StopConfig.equals, Double.equals]
  tauto

theorem BackOffConfig.equals_iff (p np : BackOffConfig) :
    p.equals np = true ↔ p.backOffType = np.backOffType ∧ Agree p.items np.items := by
  simp [equals, Agree, item, Double.equals_iff, and_assoc]

theorem FailureConfig.equals_iff (p np : FailureConfig) :
    p.equals np = true ↔
      p.frame = np.frame ∧ p.stopPolicy.errorRate ≠ .nan ∧ Agree p.items np.items := by
  obtain ⟨stop, backOff, same, result, extra⟩ := p
  obtain ⟨stop', backOff', same', result', extra'⟩ := np
  cases backOff <;> cases backOff' <;>
    simp [equals, frame, items, equalsPointer, StopConfig.equals_iff, BackOffConfig.equals_iff,
      Agree.self_iff] <;> tauto

theorem BackupConfig.equals_iff (p np : BackupConfig) :
    p.equals np = true ↔ p = np ∧ p.stopPolicy.errorRate ≠ .nan := by
  obtain ⟨delay, stop, same⟩ := p
  obtain ⟨delay', stop', same'⟩ := np
  simp [equals, StopConfig.equals_iff]
  tauto

/-- Pointers are compared by what is compared of their values. -/
theorem equalsPointer_iff {α β : Type} {equals : α → α → Bool} {frame : α → β} {rate : α → Double}
    {items : α → AList fun _ : String => Double}
    (hequals : ∀ p np, equals p np = true ↔
      frame p = frame np ∧ rate p ≠ .nan ∧ Agree (items p) (items np)) (x y : Option α) :
    equalsPointer equals x y = true ↔
      x.map frame = y.map frame ∧ .nan ∉ (x.map rate).toList ∧
        Agree ((x.map items).getD ∅) ((y.map items).getD ∅) := by
  cases x <;> cases y <;> simp [equalsPointer, hequals, Agree.self_iff, @eq_comm _ Double.nan]

namespace PolicyConfig

theorem equals_iff (p np : PolicyConfig) :
    p.equals np = true ↔
      p.frame = np.frame ∧ .nan ∉ p.errorRates ∧
        ∀ mixed, Agree (p.items mixed) (np.items mixed) := by
  have hbackup (x y : Option BackupConfig) : equalsPointer BackupConfig.equals x y = true ↔
      x = y ∧ .nan ∉ (x.map fun bp => bp.stopPolicy.errorRate).toList := by
    cases x <;> cases y <;> simp [equalsPointer, BackupConfig.equals_iff, @eq_comm _ Double.nan]
  have hmixed (mp other : MixedConfig) : mp.equals other = true ↔
      (mp.retryDelayMS, mp.failurePolicy.frame) = (other.retryDelayMS, other.failurePolicy.frame) ∧
        mp.failurePolicy.stopPolicy.errorRate ≠ .nan ∧
        Agree mp.failurePolicy.items other.failurePolicy.items := by
    simp [MixedConfig.equals, FailureConfig.equals_iff, and_assoc]
  simp only [equals, frame, errorRates, items, Bool.and_eq_true, decide_eq_true_iff,
    equalsPointer_iff FailureConfig.equals_iff, hbackup, equalsPointer_iff hmixed,
    Prod.mk.injEq, List.mem_append, not_or, Bool.forall_bool, if_true, Bool.false_eq_true, if_false]
  tauto

end PolicyConfig

/-! ## Copies -/

theorem BackOffConfig.entries_copied {entries : List (Sigma fun _ : String => Double)}
    (hnodup : entries.NodupKeys) :
    (entries.foldr (fun e copied => copied.insert e.1 e.2)
      (∅ : AList fun _ : String => Double)).entries = entries := by
  induction entries with
  | nil => rfl
  | cons e entries ih =>
    have htail := ih (List.nodupKeys_cons.mp hnodup).2
    rw [List.foldr_cons, AList.entries_insert_of_notMem, htail]
    rw [AList.mem_keys, AList.keys, htail]
    exact (List.nodupKeys_cons.mp hnodup).1

theorem BackOffConfig.deepCopy_eq (p : BackOffConfig) : p.deepCopy = p := by
  obtain ⟨type, items⟩ := p
  cases items with
  | none => rfl
  | some items =>
    exact congrArg (mk type ∘ some) (AList.ext (entries_copied items.nodupKeys))

theorem FailureConfig.deepCopy_eq (p : FailureConfig) : p.deepCopy = p := by
  simp [deepCopy, funext BackOffConfig.deepCopy_eq]

theorem PolicyConfig.deepCopy_eq (p : PolicyConfig) : p.deepCopy = p := by
  have hmixed (mp : MixedConfig) : mp.deepCopy = mp := by
    rw [MixedConfig.deepCopy, FailureConfig.deepCopy_eq]
  simp [deepCopy, funext FailureConfig.deepCopy_eq, funext hmixed]

/-! ## Decisions -/

theorem cases_of_map_eq {α β : Type} {f : α → β} {x y : Option α} (h : x.map f = y.map f) :
    x = none ∧ y = none ∨ ∃ a b, x = some a ∧ y = some b ∧ f a = f b := by
  cases x <;> cases y <;> simp_all

/-- What a retryer takes from a failure policy: all but the backoff policy, and the backoff. -/
def FailurePolicy.taken (fp : FailurePolicy) : FailurePolicy × Option BackOff :=
  ({ fp with backOffPolicy := none }, (initBackOff fp.backOffPolicy).toOption)

def MixedPolicy.taken (mp : MixedPolicy) : MixedPolicy × Option BackOff :=
  ({ mp with failurePolicy := mp.failurePolicy.taken.1 }, mp.failurePolicy.taken.2)

def RetryPolicy.taken (rp : RetryPolicy) :=
  (rp.enable, rp.type, rp.failurePolicy.map FailurePolicy.taken,
    rp.mixedPolicy.map MixedPolicy.taken, rp.backupPolicy)

/-- What the calls see of a retryer: neither the backoff policy nor the message for `Dump`. -/
def AnyRetryer.decisions : AnyRetryer → AnyRetryer
  | failure r => failure { r with policy := r.policy.map fun fp => fp.taken.1, errMsg := "" }
  | mixed r => mixed { r with policy := r.policy.map fun mp => mp.taken.1, errMsg := "" }
  | backup r => backup r

theorem newRetryer_congr {rp rp' : RetryPolicy} (htaken : rp.taken = rp'.taken)
    (rr : Option ShouldResultRetry) :
    (newRetryer rp rr).map AnyRetryer.decisions = (newRetryer rp' rr).map AnyRetryer.decisions := by
  obtain ⟨⟨enable, type, failure, mixed⟩, backup⟩ := rp
  obtain ⟨⟨enable', type', failure', mixed'⟩, backup'⟩ := rp'
  simp only [RetryPolicy.taken, Prod.mk.injEq] at htaken
  obtain ⟨rfl, rfl, hfailure, hmixed, rfl⟩ := htaken
  cases enable with
  | false => cases type <;> rfl
  | true =>
    cases type with
    | backup => rfl
    | other value => cases failure <;> cases failure' <;> rfl
    | failure =>
      obtain ⟨rfl, rfl⟩ | ⟨⟨stop, backOff, result⟩, ⟨stop', backOff', result'⟩, rfl, rfl, heq⟩ :=
        cases_of_map_eq hfailure
      · rfl
      · simp only [FailurePolicy.taken, Prod.mk.injEq, FailurePolicy.mk.injEq, true_and] at heq
        obtain ⟨⟨rfl, rfl⟩, hbackOff⟩ := heq
        simp only [newRetryer, PolicyRetryer.new, PolicyRetryer.updatePolicy, failureKind,
          checkFailurePolicy]
        cases checkStopPolicy stop 5 with
        | error err => rfl
        | ok stop =>
          cases h : initBackOff backOff <;> cases h' : initBackOff backOff' <;>
            simp_all [Except.toOption, bind, Except.bind, pure, Except.pure, Except.map,
              AnyRetryer.decisions, PolicyRetryer.setPolicy,
              PolicyRetryer.setSpecifiedResultRetryIfNeeded, FailurePolicy.taken]
    | mixed =>
      obtain ⟨rfl, rfl⟩ | ⟨⟨delay, stop, backOff, result⟩, ⟨delay', stop', backOff', result'⟩, rfl,
        rfl, heq⟩ := cases_of_map_eq hmixed
      · rfl
      · simp only [MixedPolicy.taken, FailurePolicy.taken, Prod.mk.injEq, MixedPolicy.mk.injEq,
          FailurePolicy.mk.injEq, true_and] at heq
        obtain ⟨⟨rfl, rfl, rfl⟩, hbackOff⟩ := heq
        simp only [newRetryer, PolicyRetryer.new, PolicyRetryer.updatePolicy, mixedKind,
          checkMixedPolicy]
        by_cases hdelay : delay = 0
        · simp [hdelay]
        cases checkStopPolicy stop 3 with
        | error err => simp [hdelay, bind, Except.bind]
        | ok stop =>
          cases h : initBackOff backOff <;> cases h' : initBackOff backOff' <;>
            simp_all [Except.toOption, bind, Except.bind, pure, Except.pure, Except.map,
              AnyRetryer.decisions, PolicyRetryer.setPolicy,
              PolicyRetryer.setSpecifiedResultRetryIfNeeded, FailurePolicy.taken, MixedPolicy.taken]

namespace BackOffConfig

/-- Items that are all zero are no better than a nil map. -/
theorem initBackOff_of_zero {p : BackOffConfig} (hzero : ∀ k, p.item k = .finite 0) :
    (initBackOff p.toPolicy).toOption = (initBackOff (some ⟨p.backOffType, none⟩)).toOption := by
  obtain ⟨type, items⟩ := p
  cases items with
  | none => rfl
  | some items =>
    simp only [toPolicy, hzero, Option.map_some]
    cases type with
    | none | other => rfl
    | fixed | random => decide +kernel

theorem initBackOff_congr {p np : BackOffConfig} (htype : p.backOffType = np.backOffType)
    (hitem : ∀ k, p.item k = np.item k) :
    (initBackOff p.toPolicy).toOption = (initBackOff np.toPolicy).toOption := by
  by_cases hzero : ∀ k, p.item k = .finite 0
  · have hzero' (k : String) : np.item k = .finite 0 := (hitem k).symm.trans (hzero k)
    rw [initBackOff_of_zero hzero, initBackOff_of_zero hzero', htype]
  · have hsome (q : BackOffConfig) (hq : ∀ k, p.item k = q.item k) : q.cfgItems.isSome := by
      obtain ⟨type, items⟩ := q
      cases items with
      | none => exact absurd hq hzero
      | some items => rfl
    obtain ⟨items, hitems⟩ := Option.isSome_iff_exists.mp (hsome p fun _ => rfl)
    obtain ⟨items', hitems'⟩ := Option.isSome_iff_exists.mp (hsome np hitem)
    simp only [toPolicy, htype, hitems, hitems', hitem, Option.map_some]

end BackOffConfig

theorem FailureConfig.taken_toPolicy {p np : FailureConfig} (hframe : p.frame = np.frame)
    (hitem : ∀ k, readItem p.items k = readItem np.items k)
    (hresult : p.shouldResultRetry = np.shouldResultRetry) :
    p.toPolicy.taken = np.toPolicy.taken ∧ p.limits = np.limits := by
  obtain ⟨stop, backOff, same, result, extra⟩ := p
  obtain ⟨stop', backOff', same', result', extra'⟩ := np
  simp only [frame, Prod.mk.injEq] at hframe
  obtain ⟨rfl, htype, rfl, rfl⟩ := hframe
  cases hresult
  refine ⟨congrArg (Prod.mk _) ?_, rfl⟩
  obtain ⟨rfl, rfl⟩ | ⟨bp, bp', rfl, rfl, heq⟩ := cases_of_map_eq htype
  · rfl
  · exact BackOffConfig.initBackOff_congr heq hitem

namespace PolicyConfig

variable {p np : PolicyConfig}

/-- The result functions of the policies. -/
def resultRetry (p : PolicyConfig) : List (Option (Option ShouldResultRetry)) :=
  [p.failurePolicy.map FailureConfig.shouldResultRetry,
    p.mixedPolicy.map fun mp => mp.failurePolicy.shouldResultRetry]

theorem taken_toPolicy (hframe : p.frame = np.frame)
    (hitem : ∀ mixed k, readItem (p.items mixed) k = readItem (np.items mixed) k)
    (hresult : p.resultRetry = np.resultRetry) :
    p.toPolicy.taken = np.toPolicy.taken ∧ p.limits = np.limits := by
  obtain ⟨enable, type, failure, backup, mixed⟩ := p
  obtain ⟨enable', type', failure', backup', mixed'⟩ := np
  simp only [frame, Prod.mk.injEq] at hframe
  obtain ⟨rfl, rfl, hfailure, rfl, hmixed⟩ := hframe
  simp only [resultRetry, List.cons.injEq, and_true] at hresult
  simp only [toPolicy, RetryPolicy.taken, limits, Option.map_map, Prod.mk.injEq, true_and,
    and_true, List.cons.injEq]
  rw [and_and_and_comm]
  constructor
  · obtain ⟨rfl, rfl⟩ | ⟨fp, fp', rfl, rfl, hfp⟩ := cases_of_map_eq hfailure
    · exact ⟨rfl, rfl⟩
    · have hread := FailureConfig.taken_toPolicy hfp (hitem false) (Option.some.inj hresult.1)
      exact hread.imp (congrArg some) (congrArg some)
  · obtain ⟨rfl, rfl⟩ | ⟨⟨delay, fp⟩, ⟨delay', fp'⟩, rfl, rfl, hmp⟩ := cases_of_map_eq hmixed
    · exact ⟨rfl, rfl⟩
    · obtain ⟨rfl, hfp⟩ := Prod.mk.inj hmp
      have hread := FailureConfig.taken_toPolicy hfp (hitem true) (Option.some.inj hresult.2)
      refine hread.imp (fun htaken => ?_) (congrArg some)
      simp [MixedPolicy.taken, htaken]

theorem errorRates_congr (hframe : p.frame = np.frame) : p.errorRates = np.errorRates := by
  have hrates (q : PolicyConfig) : q.errorRates =
      (q.frame.2.2.1.map fun fp => fp.1.errorRate).toList ++
        (q.frame.2.2.2.1.map fun bp => bp.stopPolicy.errorRate).toList ++
        (q.frame.2.2.2.2.map fun mp => mp.2.1.errorRate).toList := by
    simp [errorRates, frame, FailureConfig.frame, Function.comp_def]
  rw [hrates, hrates, hframe]

/-- Equality holds of a policy and itself or its copy where nothing is NaN. Where it holds from one
policy to another, it holds back if the second reads zero under its keys that the first lacks, and
on to a third if that one reads zero under the keys of the first that the second lacks. Policies
that are equal in both directions and have the same result functions give the same retryers and
limits. -/
theorem equals_laws (p np other : PolicyConfig) :
    (p.equals p = true ↔ p.NoNaN) ∧ (p.equals p.deepCopy = true ↔ p.NoNaN) ∧
      (p.equals np = true → (np.equals p = true ↔ np.ZeroUnder np p)) ∧
      (p.equals np = true → np.equals other = true →
        (p.equals other = true ↔ other.ZeroUnder p np)) ∧
      (p.equals np = true → np.equals p = true → p.resultRetry = np.resultRetry →
        (∀ rr, (newRetryer p.toPolicy rr).map AnyRetryer.decisions =
          (newRetryer np.toPolicy rr).map AnyRetryer.decisions) ∧ p.limits = np.limits) := by
  have hself : p.equals p = true ↔ p.NoNaN := by
    simp only [equals_iff, Agree.self_iff, NoNaN, true_and]
  simp only [deepCopy_eq, hself, true_and]
  simp only [equals_iff]
  refine ⟨?_, ?_, ?_⟩
  · rintro ⟨hframe, hnan, hitems⟩
    rw [← errorRates_congr hframe]
    simp only [hframe, hnan, not_false_iff, true_and, (hitems _).symm_iff, ZeroUnder]
  · rintro ⟨hframe, hnan, hitems⟩ ⟨hframe', -, hitems'⟩
    simp only [hframe, hframe', hnan, not_false_iff, true_and, (hitems _).trans_iff (hitems' _),
      ZeroUnder]
  · rintro ⟨hframe, -, hitems⟩ ⟨-, -, hitems'⟩ hresult
    obtain ⟨htaken, hlimits⟩ :=
      taken_toPolicy hframe (fun mixed => (hitems mixed).readItem_eq (hitems' mixed)) hresult
    exact ⟨newRetryer_congr htaken, hlimits⟩

/-- A failure policy with these backoff items. -/
def backOffOf (backOffType : BackOffType) (items : List (String × Rat)) : PolicyConfig where
  enable := true
  type := .failure
  failurePolicy := some
    { stopPolicy := { maxRetryTimes := 1, errorRate := .finite 0 }
      backOffPolicy := some
        { backOffType
          cfgItems := some (items.foldr (fun (k, v) cfg => cfg.insert k (.finite v)) ∅) } }

/-- A random backoff from zero to ten milliseconds, and one with the items the other way round. -/
theorem equals_laws_random :
    let p := backOffOf .random [("min_ms", 0), ("max_ms", 10)]
    let np := backOffOf .random [("max_ms", 10), ("min_ms", 0)]
    p.equals np = true ∧ np.equals p = true ∧
      (newRetryer p.toPolicy none).map AnyRetryer.decisions =
        (newRetryer np.toPolicy none).map AnyRetryer.decisions := by
  intro p np
  obtain ⟨-, -, hsymm, -, hdecisions⟩ := equals_laws p np p
  have hequals : p.equals np = true := by decide +kernel
  have hback : np.equals p = true := by
    refine (hsymm hequals).mpr fun mixed k hk hmissing => absurd ?_ hmissing
    cases mixed
    · revert k; decide +kernel
    · nomatch hk
  exact ⟨hequals, hback, (hdecisions hequals hback rfl).1 none⟩

/-- A zero equals the item that is missing, so equality holds in one direction only, and
between a policy that waits and one without a valid backoff. -/
theorem zero_item_equals_missing :
    let p := backOffOf .fixed [("min_ms", 0)]
    let np := backOffOf .fixed [("fix_ms", 5)]
    p.equals np = true ∧ np.equals p = false ∧
      (p.failurePolicy.bind fun fp => (initBackOff fp.toPolicy.backOffPolicy).toOption) = none ∧
      (np.failurePolicy.bind fun fp => (initBackOff fp.toPolicy.backOffPolicy).toOption) =
        some (.fixed 5) := by
  decide +kernel

end PolicyConfig

end Kitex.Retry
