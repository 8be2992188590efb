import CartLedger.OrderedMap.Lemmas
import CartLedger.Proofs.Text.Decimal
import CartLedger.Shards

/-! Every cart has one shard, and every shard one label.

A cart's shard is a remainder, so it is among those there are whatever the sign of the hash
(`shardFor_lt`), and labels end in the number of their shard, so no two are the same
(`label_inj`). The tags of a cart are therefore one of the labels and nothing else. -/
namespace CartLedger.Shards
open CartLedger.Text.Decimal (digits value_digits)

theorem label_inj (S : Shards) {m n : Nat} (h : S.label m = S.label n) : m = n := by
  have hchars := congrArg String.toList h
  simp only [label, String.toList_append, Nat.toString_eq_ofList_toDigits, String.toList_ofList] at hchars
  have hdigits : digits m = digits n := List.append_cancel_left hchars
  rw [← value_digits m, hdigits, value_digits]

theorem nodup_allTags (S : Shards) : S.allTags.Nodup := by
  refine List.pairwise_map.2 (List.nodup_range.imp fun {m n} hne he => ?_)
  exact hne (S.label_inj he)

theorem shardFor_eq (S : Shards) (id : String) : S.shardFor id = (stringHash id).toInt.natAbs % S.count := by
  rw [shardFor, Int.natAbs_tmod, Int.natAbs_natCast]

theorem shardFor_lt (S : Shards) (id : String) : S.shardFor id < S.count := by
  rw [shardFor_eq]
  exact Nat.mod_lt _ S.count_pos

theorem label_mem_allTags (S : Shards) (id : String) : S.label (S.shardFor id) ∈ S.allTags :=
  List.mem_map.2 ⟨S.shardFor id, List.mem_range.2 (S.shardFor_lt id), rfl⟩

theorem contains_tagsFor (S : Shards) (id tag : String) :
    (S.tagsFor id).contains tag = decide (tag = S.label (S.shardFor id)) := by
  rw [tagsFor, OrderedSet.singleton, OrderedMap.contains_eq_isSome]
  show (((OrderedMap.empty : OrderedSet String).insert _ ()).get? tag).isSome = _
  rw [OrderedMap.get?_insert, OrderedMap.get?_empty]
  by_cases h : S.label (S.shardFor id) = tag
  · simp [h]
  · simp [h, Ne.symm h]

end CartLedger.Shards
