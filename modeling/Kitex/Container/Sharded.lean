import Kitex.Container.Slots
import Kitex.Container.Lookup

/-! # Maps that are split into shards

A list of maps stands for one map when each key is kept in the map at its own index only. Inserting,
erasing and looking up at that index is then inserting, erasing and looking up in the one map, and
the entries of all shards are its entries.
-/

namespace Kitex.Container

variable {κ β : Type} [DecidableEq κ]

/-- The maps stand for `m`, where a key belongs to the map at its index. -/
structure Sharded (index : κ → Option Nat) (shards : List (AList fun _ : κ => β))
    (m : AList fun _ : κ => β) : Prop where
  home : ∀ (i : Nat) shard k v, shards[i]? = some shard → shard.lookup k = some v →
    index k = some i
  lookup : ∀ (i : Nat) shard k, shards[i]? = some shard → index k = some i →
    shard.lookup k = m.lookup k
  found : ∀ k v, m.lookup k = some v → ∃ i shard, index k = some i ∧ shards[i]? = some shard

namespace Sharded

variable {index : κ → Option Nat} {shards : List (AList fun _ : κ => β)}
  {m : AList fun _ : κ => β} {k : κ} {v : β} {i : Nat}

theorem empty (index : κ → Option Nat) (size : Nat) :
    Sharded index (List.replicate size (∅ : AList fun _ : κ => β)) ∅ where
  home i shard k v hshard hlookup := by
    rw [List.eq_of_mem_replicate (List.mem_of_getElem? hshard), AList.lookup_empty] at hlookup
    cases hlookup
  lookup i shard k hshard _ := by
    rw [List.eq_of_mem_replicate (List.mem_of_getElem? hshard)]
  found k v hlookup := by
    cases hlookup

variable (h : Sharded index shards m)
include h

/-- A change of one key in its shard. -/
theorem change {f : (AList fun _ : κ => β) → AList fun _ : κ => β} {m' : AList fun _ : κ => β}
    (hindex : index k = some i)
    (hshard : ∀ shard k', k' ≠ k → (f shard).lookup k' = shard.lookup k')
    (hm : ∀ k', k' ≠ k → m'.lookup k' = m.lookup k')
    (hkey : ∀ shard, (f shard).lookup k = m'.lookup k)
    (hfound : ∀ v, m'.lookup k = some v → ∃ shard, shards[i]? = some shard) :
    Sharded index (shards.modify i f) m' where
  home i' shard' k' v' hshard' hlookup := by
    rcases getElem?_modify_cases hshard' with ⟨_, hold⟩ | ⟨old, rfl, hold, rfl⟩
    · exact h.home i' shard' k' v' hold hlookup
    · by_cases heq : k' = k
      · exact heq ▸ hindex
      · exact h.home i' old k' v' hold (hshard old k' heq ▸ hlookup)
  lookup i' shard' k' hshard' hindex' := by
    rcases getElem?_modify_cases hshard' with ⟨hne, hold⟩ | ⟨old, rfl, hold, rfl⟩
    · have hother : k' ≠ k := by
        rintro rfl
        exact hne (Option.some.inj (hindex'.symm.trans hindex))
      rw [hm k' hother, h.lookup i' shard' k' hold hindex']
    · by_cases heq : k' = k
      · rw [heq, hkey]
      · rw [hshard old k' heq, hm k' heq, h.lookup i' old k' hold hindex']
  found k' v' hlookup := by
    obtain ⟨i', shard', hindex', hshard'⟩ :
        ∃ i' shard', index k' = some i' ∧ shards[i']? = some shard' := by
      by_cases heq : k' = k
      · subst heq
        obtain ⟨shard, hsome⟩ := hfound v' hlookup
        exact ⟨i, shard, hindex, hsome⟩
      · exact h.found k' v' (hm k' heq ▸ hlookup)
    by_cases heq : i' = i
    · subst heq
      exact ⟨i', _, hindex', getElem?_modify_self hshard' _⟩
    · exact ⟨i', shard', hindex', by rw [getElem?_modify_ne heq, hshard']⟩

theorem insert (hindex : index k = some i)
    {shard : AList fun _ : κ => β} (hshard : shards[i]? = some shard) :
    Sharded index (shards.modify i (·.insert k v)) (m.insert k v) :=
  h.change hindex (fun _ _ => AList.lookup_insert_ne) (fun _ => AList.lookup_insert_ne)
    (fun _ => by rw [AList.lookup_insert, AList.lookup_insert]) fun _ _ => ⟨shard, hshard⟩

theorem erase (hindex : index k = some i) :
    Sharded index (shards.modify i (·.erase k)) (m.erase k) :=
  h.change hindex (fun _ _ => AList.lookup_erase_ne) (fun _ => AList.lookup_erase_ne)
    (fun _ => by rw [AList.lookup_erase, AList.lookup_erase]) fun v hnone => by
      rw [AList.lookup_erase] at hnone
      cases hnone

theorem nodupKeys_entries : (shards.flatMap (·.entries)).NodupKeys := by
  rw [List.flatMap_def, List.nodupKeys_flatten, List.map_map, List.pairwise_map]
  refine ⟨?_, ?_⟩
  · intro entries hentries
    obtain ⟨shard, -, rfl⟩ := List.mem_map.mp hentries
    exact shard.nodupKeys
  · -- a key of two shards would have two indices
    refine List.pairwise_iff_getElem.mpr fun i j hi hj hlt k hki hkj => ?_
    obtain ⟨v, hv⟩ := Option.isSome_iff_exists.mp (AList.lookup_isSome.mpr hki)
    obtain ⟨w, hw⟩ := Option.isSome_iff_exists.mp (AList.lookup_isSome.mpr hkj)
    have hindex := h.home i _ k v (List.getElem?_eq_getElem hi) hv
    rw [h.home j _ k w (List.getElem?_eq_getElem hj) hw] at hindex
    exact Nat.ne_of_gt hlt (Option.some.inj hindex)

/-- All entries of the shards are the entries of the one map. -/
theorem perm_entries : (shards.flatMap (·.entries)).Perm m.entries := by
  have hmem : ∀ {shard : AList fun _ : κ => β} {entry : Sigma fun _ : κ => β},
      entry ∈ shard.entries ↔ shard.lookup entry.1 = some entry.2 := fun {shard entry} =>
    (List.mem_dlookup_iff shard.nodupKeys).symm
  have hnodup : (shards.flatMap (·.entries)).NodupKeys := h.nodupKeys_entries
  refine List.lookup_ext hnodup m.nodupKeys fun k v => ?_
  rw [List.mem_dlookup_iff hnodup, List.mem_flatMap]
  constructor
  · rintro ⟨shard, hshard, hentry⟩
    obtain ⟨i, hi⟩ := List.mem_iff_getElem?.mp hshard
    have hlookup := hmem.mp hentry
    rw [h.lookup i shard k hi (h.home i shard k v hi hlookup)] at hlookup
    exact hlookup
  · intro hlookup
    obtain ⟨i, shard, hindex, hshard⟩ := h.found k v hlookup
    refine ⟨shard, List.mem_of_getElem? hshard, hmem.mpr ?_⟩
    rw [h.lookup i shard k hshard hindex]
    exact hlookup

end Sharded

end Kitex.Container
