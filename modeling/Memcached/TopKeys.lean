import Mathlib

set_option autoImplicit false

/-!
# Top-keys shards

A `TopKeys::Shard` keeps an `std::unordered_map` from key to `topkey_item_t` and an
`std::list` of pointers to the map's keys, most recently updated first. The map is an
`AList` here and a list entry is the key it points to. `updateKey` may meet
`std::bad_alloc` at any of its three allocations; which one (if any) throws is an argument.
Undefined behaviour and a failed `cb_assert` are `none`, except the overflow of the `int`
`ti_access_count`, which wraps.

Over every sequence of successful updates from a fresh shard, the shard refines an LRU
cache of capacity `max_keys` (`lruUpdate`), and that cache shows, for each of the most
recently updated keys, the time it last entered and the number of its updates since, modulo
2^32: exactly while it is below 2^31, and never 2^31 updates, which the `int` cannot hold.
A `push_front` that throws after `emplace` has inserted the key breaks the shard.
-/

namespace Memcached.TopKeys

/-- `rel_time_t`. -/
abbrev RelTime := UInt32

/-- `topkey_item_t`. `ti_access_count` is a C `int`, as a 32-bit two's-complement word: the
source increments it without bound, and its overflow (undefined in C) wraps here. -/
structure TopkeyItem where
  tiCtime : RelTime
  tiAccessCount : BitVec 32
  deriving DecidableEq, Repr

/-- `topkey_item_t(create_time)`. -/
def TopkeyItem.new (ct : RelTime) : TopkeyItem := ⟨ct, 0⟩

/-- `ti_access_count++`. -/
def TopkeyItem.incr (it : TopkeyItem) : TopkeyItem := { it with tiAccessCount := it.tiAccessCount + 1 }

abbrev TopkeyMap (K : Type) := AList fun _ : K => TopkeyItem

structure Shard (K : Type) where
  maxKeys : Nat
  hash : TopkeyMap K
  list : List K

/-- Which allocation of `Shard::updateKey` throws `std::bad_alloc`, if any. -/
inductive AllocFailure
  | none
  /-- the key copy in `std::make_pair` -/
  | makePair
  /-- the hash node in `emplace` -/
  | emplace
  /-- the list node in `push_front` -/
  | pushFront
  deriving DecidableEq, Repr

section Shard
variable {K : Type} [DecidableEq K]

/-- `TopKeys::TopKeys(mkeys)`: `setMaxKeys` on an empty shard. -/
def Shard.empty (mkeys : Nat) : Shard K := ⟨mkeys, ∅, []⟩

/-- `result.first->second.ti_access_count++`. -/
def incrAccessCount (key : K) (hash : TopkeyMap K) : TopkeyMap K :=
  match hash.lookup key with
  | some it => hash.insert key it.incr
  | none => hash

/-- The eviction after `emplace` inserted a new key, giving `hash`: once
`hash.size() > max_keys`, erase `*list.back()` and pop it. `back()` of an empty list is
undefined, and so is dereferencing an entry that does not point into the shard's map. -/
def Shard.evict (s : Shard K) (hash : TopkeyMap K) : Option (TopkeyMap K × List K) :=
  if s.maxKeys < hash.entries.length then
    match s.list.getLast? with
    | some victim => if victim ∈ s.hash then some (hash.erase victim, s.list.dropLast) else none
    | none => none
  else some (hash, s.list)

/-- `TopKeys::Shard::updateKey(key, ct)`, with `fail` the allocation that throws. A key of the
map missing from the list makes `std::find` return `list.end()`, and splicing it is
undefined. -/
def Shard.updateKey (fail : AllocFailure) (key : K) (ct : RelTime) (s : Shard K) :
    Option (Bool × Shard K) :=
  if fail = .makePair ∨ fail = .emplace then some (false, s)
  else if key ∈ s.hash then
    if key ∈ s.list then
      some (true, ⟨s.maxKeys, incrAccessCount key s.hash, key :: s.list.erase key⟩)
    else none
  else
    (s.evict (s.hash.insert key (.new ct))).map fun (hash, list) =>
      if fail = .pushFront then (false, ⟨s.maxKeys, hash, list⟩)
      else (true, ⟨s.maxKeys, incrAccessCount key hash, key :: list⟩)

/-- `TopKeys::Shard::accept_visitor`: what the visitor is called with, in order; `none` when
`hash.at` throws `std::out_of_range`. -/
def Shard.acceptVisitor (s : Shard K) : Option (List (K × TopkeyItem)) :=
  s.list.mapM fun key => (s.hash.lookup key).map (key, ·)

/-- Calls of `updateKey` one after another, each with its allocation outcome; their results. -/
def Shard.runUpdates : Shard K → List (AllocFailure × K × RelTime) → Option (List Bool × Shard K)
  | s, [] => some ([], s)
  | s, (f, key, ct) :: calls => do
    let (r, s) ← s.updateKey f key ct
    let (rs, s) ← s.runUpdates calls
    pure (r :: rs, s)

@[simp] theorem incr_tiCtime (it : TopkeyItem) : it.incr.tiCtime = it.tiCtime := rfl

@[simp] theorem incr_tiAccessCount (it : TopkeyItem) :
    it.incr.tiAccessCount = it.tiAccessCount + 1 := rfl

theorem toInt_ofNat_of_lt {c : Nat} (h : c < 2 ^ 31) : (BitVec.ofNat 32 c).toInt = c := by
  rw [BitVec.toInt_ofNat, Int.bmod_pos _ _ (by rw [Int.emod_eq_of_lt] <;> omega),
    Int.emod_eq_of_lt] <;> omega

omit [DecidableEq K] in
theorem length_entries (hash : TopkeyMap K) : hash.entries.length = hash.keys.length := by
  simp [AList.keys, List.keys]

theorem lookup_incrAccessCount (key j : K) (hash : TopkeyMap K) :
    (incrAccessCount key hash).lookup j =
      if j = key then (hash.lookup key).map TopkeyItem.incr else hash.lookup j := by
  unfold incrAccessCount
  by_cases h : j = key
  · subst h; cases hk : hash.lookup j <;> simp [hk, AList.lookup_insert]
  · cases hk : hash.lookup key <;> simp [h, hk, AList.lookup_insert_ne h]

theorem keys_incrAccessCount {key : K} {hash : TopkeyMap K} (h : key ∈ hash) :
    List.Perm (incrAccessCount key hash).keys hash.keys := by
  obtain ⟨it, hit⟩ := Option.isSome_iff_exists.mp (AList.lookup_isSome.mpr h)
  simp only [incrAccessCount, hit, AList.keys_insert]
  exact (List.perm_cons_erase (AList.mem_keys.mp h)).symm

theorem updateKey_none_of_not_mem {key : K} {ct : RelTime} {s : Shard K} (hk : key ∉ s.hash) :
    s.updateKey .none key ct = (s.evict (s.hash.insert key (.new ct))).map fun (hash, list) =>
      (true, ⟨s.maxKeys, incrAccessCount key hash, key :: list⟩) := by
  simp [Shard.updateKey, hk]

theorem updateKey_of_true {f : AllocFailure} {key : K} {ct : RelTime} {s s' : Shard K}
    (h : s.updateKey f key ct = some (true, s')) : s.updateKey .none key ct = some (true, s') := by
  cases f with
  | none => exact h
  | makePair | emplace => simp [Shard.updateKey] at h
  | pushFront =>
    unfold Shard.updateKey at h ⊢
    split_ifs at h ⊢ <;> simp_all

end Shard

/-! ## The abstract LRU cache -/

section Lru
variable {K : Type} [DecidableEq K]

/-- An LRU cache of capacity `n`, entries most recently used first. A present key moves to
the front and counts one more access; a new key enters at the front with the update's time
and one access, and the least recently used entry is dropped beyond `n` entries. -/
def lruUpdate (n : Nat) (c : List (K × TopkeyItem)) (key : K) (t : RelTime) :
    List (K × TopkeyItem) :=
  match c.find? (·.1 = key) with
  | some (_, it) => (key, it.incr) :: c.filter (·.1 ≠ key)
  | none => ((key, ⟨t, 1⟩) :: c).take n

def lruRun (n : Nat) (ups : List (K × RelTime)) : List (K × TopkeyItem) :=
  ups.foldl (fun c u => lruUpdate n c u.1 u.2) []

theorem lruRun_concat (n : Nat) (ups : List (K × RelTime)) (u : K × RelTime) :
    lruRun n (ups ++ [u]) = lruUpdate n (lruRun n ups) u.1 u.2 := by
  simp [lruRun, List.foldl_append]

theorem lruRun_replicate {n : Nat} (hn : 0 < n) (k : K) (t : RelTime) (m : Nat) :
    lruRun n (List.replicate (m + 1) (k, t)) = [(k, ⟨t, BitVec.ofNat 32 (m + 1)⟩)] := by
  induction m with
  | zero => simpa [lruRun, lruUpdate] using hn
  | succ m ih =>
    rw [List.replicate_succ', lruRun_concat, ih]
    simp [lruUpdate, TopkeyItem.incr, BitVec.ofNat_add_ofNat]

/-- The shard holds exactly the cache `c`: its list is `c`'s keys, in order, each mapped to
its item in `c`, and its map has no other key. -/
structure Refines (n : Nat) (s : Shard K) (c : List (K × TopkeyItem)) : Prop where
  maxKeys_eq : s.maxKeys = n
  pos : 0 < n
  keys_perm : List.Perm s.hash.keys s.list
  list_eq : c.map Prod.fst = s.list
  lookup_eq : ∀ p ∈ c, s.hash.lookup p.1 = some p.2
  length_le : s.list.length ≤ n

theorem map_fst_filter_ne {c : List (K × TopkeyItem)} (hc : (c.map Prod.fst).Nodup) (k : K) :
    (c.filter (·.1 ≠ k)).map Prod.fst = (c.map Prod.fst).erase k := by
  rw [hc.erase_eq_filter, List.filter_map]
  simp [Function.comp_def]
  rfl

variable {n : Nat} {s : Shard K} {c : List (K × TopkeyItem)}

theorem refines_empty (hn : 0 < n) : Refines n (Shard.empty n) ([] : List (K × TopkeyItem)) :=
  ⟨rfl, hn, by simp [Shard.empty], rfl, by simp, by simp [Shard.empty]⟩

theorem Refines.nodup (h : Refines n s c) : s.list.Nodup :=
  h.keys_perm.nodup_iff.mp (AList.keys_nodup _)

theorem Refines.mem_iff (h : Refines n s c) {k : K} : k ∈ s.hash ↔ k ∈ s.list :=
  AList.mem_keys.trans h.keys_perm.mem_iff

theorem Refines.length_eq (h : Refines n s c) : c.length = s.list.length := by
  rw [← h.list_eq, List.length_map]

theorem Refines.acceptVisitor (h : Refines n s c) : s.acceptVisitor = some c := by
  unfold Shard.acceptVisitor
  rw [← h.list_eq]
  have hl := h.lookup_eq
  clear h
  induction c with
  | nil => rfl
  | cons p c ih =>
    simp only [List.mem_cons, forall_eq_or_imp] at hl
    simp only [List.map_cons, List.mapM_cons, hl.1, ih hl.2]
    rfl

theorem Refines.update_mem (h : Refines n s c) {key : K} {it : TopkeyItem} (t : RelTime)
    (hk : (key, it) ∈ c) :
    s.updateKey .none key t =
        some (true, ⟨n, incrAccessCount key s.hash, key :: s.list.erase key⟩) ∧
      Refines n ⟨n, incrAccessCount key s.hash, key :: s.list.erase key⟩
        ((key, it.incr) :: c.filter (·.1 ≠ key)) := by
  have hl : key ∈ s.list := h.list_eq ▸ List.mem_map_of_mem Prod.fst hk
  have hh : key ∈ s.hash := h.mem_iff.mpr hl
  refine ⟨by simp [Shard.updateKey, hh, hl, h.maxKeys_eq], rfl, h.pos,
    ((keys_incrAccessCount hh).trans h.keys_perm).trans (List.perm_cons_erase hl), ?_, ?_, ?_⟩
  · rw [List.map_cons, map_fst_filter_ne (h.list_eq ▸ h.nodup), h.list_eq]
  · simp only [List.mem_cons, List.mem_filter, forall_eq_or_imp, lookup_incrAccessCount,
      if_pos, h.lookup_eq _ hk]
    refine ⟨rfl, fun p ⟨hp, hpk⟩ => ?_⟩
    rw [if_neg (by simpa using hpk), h.lookup_eq p hp]
  · simp only [List.length_cons]
    rw [List.length_erase_of_mem hl]
    have := h.length_le
    have := List.length_pos_of_mem hl
    omega

theorem erase_getLast_eq_dropLast {l : List K} (hl : l.Nodup) {v : K} (hv : l.getLast? = some v) :
    l.erase v = l.dropLast := by
  have hsplit := List.dropLast_append_getLast? v hv
  have hnd : (l.dropLast ++ [v]).Nodup := by rw [hsplit]; exact hl
  have hv' : v ∉ l.dropLast := fun hm =>
    (List.nodup_append.mp hnd).2.2 hm (List.mem_singleton_self v)
  conv_lhs => rw [← hsplit]
  simp [List.erase_append_right _ hv']

theorem Refines.update_not_mem (h : Refines n s c) {key : K} (t : RelTime)
    (hk : key ∉ c.map Prod.fst) :
    ∃ s', s.updateKey .none key t = some (true, s') ∧
      Refines n s' (((key, ⟨t, 1⟩) :: c).take n) := by
  have hl : key ∉ s.list := h.list_eq ▸ hk
  have hh : key ∉ s.hash := fun hm => hl (h.mem_iff.mp hm)
  have hsize : (s.hash.insert key (.new t)).entries.length = s.list.length + 1 := by
    rw [length_entries, AList.keys_insert, List.erase_of_not_mem (AList.mem_keys.not.mp hh),
      List.length_cons, h.keys_perm.length_eq]
  have hlook : ∀ j, j ≠ key → ∀ hash, (incrAccessCount key hash).lookup j = hash.lookup j :=
    fun j hj hash => by simp [lookup_incrAccessCount, hj]
  by_cases hfull : n < s.list.length + 1
  · -- the shard is full: `list.back()` is evicted
    have hlen : s.list.length = n := by have := h.length_le; omega
    obtain ⟨v, hv⟩ : ∃ v, s.list.getLast? = some v := by
      cases hg : s.list.getLast? with
      | none => simp [List.getLast?_eq_none_iff.mp hg] at hlen; exact absurd hlen h.pos.ne
      | some v => exact ⟨v, rfl⟩
    have hvl : v ∈ s.list := List.mem_of_getLast?_eq_some hv
    have hvk : v ≠ key := fun e => hl (e ▸ hvl)
    have hdrop := erase_getLast_eq_dropLast h.nodup hv
    have htake : c.take (n - 1) = c.dropLast := by rw [List.dropLast_eq_take, h.length_eq, hlen]
    refine ⟨⟨n, incrAccessCount key ((s.hash.insert key (.new t)).erase v), key :: s.list.dropLast⟩,
      ?_, rfl, h.pos, ?_, ?_, ?_, ?_⟩
    · simp only [updateKey_none_of_not_mem hh, Shard.evict, hsize, h.maxKeys_eq, if_pos hfull, hv,
        if_pos (h.mem_iff.mpr hvl), Option.map_some']
    · refine (keys_incrAccessCount (by simp [AList.mem_erase, hvk.symm])).trans ?_
      rw [AList.keys_erase, AList.keys_insert,
        List.erase_of_not_mem (AList.mem_keys.not.mp hh), List.erase_cons_tail (by simpa using hvk.symm),
        ← hdrop]
      exact (h.keys_perm.erase v).cons key
    · rw [List.take_cons h.pos, htake]
      simp [h.list_eq]
    · rw [List.take_cons h.pos, htake]
      simp only [List.mem_cons, forall_eq_or_imp]
      refine ⟨by simp [lookup_incrAccessCount, AList.lookup_erase_ne hvk.symm, AList.lookup_insert,
        TopkeyItem.new, TopkeyItem.incr], fun p hp => ?_⟩
      have hpl : p.1 ∈ s.list.dropLast := by
        rw [← h.list_eq, ← List.map_dropLast]; exact List.mem_map_of_mem _ hp
      have hpk : p.1 ≠ key := fun e => hl (e ▸ List.dropLast_subset _ hpl)
      have hpv : p.1 ≠ v := fun e => by
        rw [← hdrop, e] at hpl; exact (h.nodup.not_mem_erase) hpl
      rw [hlook _ hpk, AList.lookup_erase_ne hpv, AList.lookup_insert_ne hpk,
        h.lookup_eq p (List.dropLast_subset _ hp)]
    · have := h.pos
      simp [List.length_dropLast, hlen]
      omega
  · -- room for one more key
    refine ⟨⟨n, incrAccessCount key (s.hash.insert key (.new t)), key :: s.list⟩, ?_, rfl, h.pos, ?_,
      ?_, ?_, ?_⟩
    · simp only [updateKey_none_of_not_mem hh, Shard.evict, hsize, h.maxKeys_eq, if_neg hfull,
        Option.map_some']
    · refine (keys_incrAccessCount (by simp)).trans ?_
      rw [AList.keys_insert, List.erase_of_not_mem (AList.mem_keys.not.mp hh)]
      exact h.keys_perm.cons key
    · rw [List.take_of_length_le (by simp [h.length_eq]; omega)]
      simp [h.list_eq]
    · rw [List.take_of_length_le (by simp [h.length_eq]; omega)]
      simp only [List.mem_cons, forall_eq_or_imp]
      refine ⟨by simp [lookup_incrAccessCount, AList.lookup_insert, TopkeyItem.new,
        TopkeyItem.incr], fun p hp => ?_⟩
      have hpk : p.1 ≠ key := fun e => hk (e ▸ List.mem_map_of_mem _ hp)
      rw [hlook _ hpk, AList.lookup_insert_ne hpk, h.lookup_eq p hp]
    · simp only [List.length_cons]; omega

/-- Step lemma: a call without allocation failure succeeds, and the shard then holds the
cache after the same update. -/
theorem Refines.updateKey (h : Refines n s c) (key : K) (t : RelTime) :
    ∃ s', s.updateKey .none key t = some (true, s') ∧ Refines n s' (lruUpdate n c key t) := by
  unfold lruUpdate
  cases hf : c.find? (·.1 = key) with
  | some p =>
    obtain ⟨k, it⟩ := p
    have hk : k = key := by simpa using List.find?_some hf
    subst hk
    exact ⟨_, h.update_mem t (List.mem_of_find?_eq_some hf)⟩
  | none =>
    refine h.update_not_mem t fun hm => ?_
    obtain ⟨p, hp, rfl⟩ := List.mem_map.mp hm
    simpa using List.find?_eq_none.mp hf p hp

/-- Run lemma: calls that all return `true` keep the shard refining the cache. -/
theorem Refines.runUpdates (h : Refines n s c) (calls : List (AllocFailure × K × RelTime))
    {rs : List Bool} {s' : Shard K} (hrun : s.runUpdates calls = some (rs, s'))
    (htrue : ∀ r ∈ rs, r = true) :
    Refines n s' (calls.foldl (fun c u => lruUpdate n c u.2.1 u.2.2) c) := by
  induction calls generalizing s c rs with
  | nil => simp only [Shard.runUpdates, Option.some.injEq, Prod.mk.injEq] at hrun; exact hrun.2 ▸ h
  | cons u calls ih =>
    obtain ⟨f, key, t⟩ := u
    simp only [Shard.runUpdates, Option.bind_eq_bind, Option.bind_eq_some, Option.some.injEq] at hrun
    obtain ⟨⟨r, s₁⟩, h₁, ⟨rs', s₂⟩, h₂, hrs⟩ := hrun
    simp only [Prod.mk.injEq] at hrs
    obtain ⟨rfl, rfl⟩ := hrs
    have hr : r = true := htrue r (List.mem_cons_self _ _)
    subst hr
    obtain ⟨s₁', hs₁', hs₁⟩ := h.updateKey key t
    rw [updateKey_of_true h₁] at hs₁'
    cases hs₁'
    exact ih hs₁ h₂ fun r hr => htrue r (List.mem_cons_of_mem _ hr)

theorem Refines.runUpdates_none (h : Refines n s c) (ups : List (K × RelTime)) :
    ∃ s', s.runUpdates (ups.map ((AllocFailure.none, ·))) = some (ups.map fun _ => true, s') := by
  induction ups generalizing s c with
  | nil => exact ⟨s, rfl⟩
  | cons u ups ih =>
    obtain ⟨s₁, hs₁, h₁⟩ := h.updateKey u.1 u.2
    obtain ⟨s₂, hs₂⟩ := ih h₁
    exact ⟨s₂, by simp [Shard.runUpdates, hs₁, hs₂]⟩

end Lru

/-! ## What the cache shows -/

section Describe
variable {K : Type} [DecidableEq K]

/-- The distinct keys of `ups`, most recently updated first. -/
def mruKeys (ups : List (K × RelTime)) : List K := (ups.map Prod.fst).dedup.reverse

/-- The keys an LRU cache of capacity `n` holds after `ups`. -/
def cachedKeys (n : Nat) (ups : List (K × RelTime)) : List K := (mruKeys ups).take n

/-- Update `i` of `ups` is `(k, t)` and finds `k` outside the cache, so `k` enters there; no
later update of `k` finds it outside again. -/
def LastEntry (n : Nat) (ups : List (K × RelTime)) (k : K) (i : Nat) (t : RelTime) : Prop :=
  ups[i]? = some (k, t) ∧ k ∉ cachedKeys n (ups.take i) ∧
    ∀ j t', i < j → ups[j]? = some (k, t') → k ∈ cachedKeys n (ups.take j)

/-- `vis` shows the keys an LRU cache of capacity `n` holds after `ups`, in order, each with
the time of the update at which it last entered and the number of its updates from that one
on, as a 32-bit word. -/
structure Describes (n : Nat) (ups : List (K × RelTime)) (vis : List (K × TopkeyItem)) : Prop where
  keys_eq : vis.map Prod.fst = cachedKeys n ups
  entry : ∀ k it, (k, it) ∈ vis → ∃ i, LastEntry n ups k i it.tiCtime ∧
    it.tiAccessCount = BitVec.ofNat 32 ((ups.drop i).countP (·.1 = k))

theorem dedup_concat (l : List K) (k : K) : (l ++ [k]).dedup = l.dedup.erase k ++ [k] := by
  induction l with
  | nil => simp
  | cons a l ih =>
    by_cases ha : a ∈ l
    · rw [List.cons_append, List.dedup_cons_of_mem (by simp [ha]), List.dedup_cons_of_mem ha, ih]
    · by_cases hak : a = k
      · subst hak
        rw [List.cons_append, List.dedup_cons_of_mem (by simp), List.dedup_cons_of_not_mem ha, ih,
          List.erase_cons_head, List.erase_of_not_mem (by simpa [List.mem_dedup] using ha)]
      · rw [List.cons_append, List.dedup_cons_of_not_mem (by simp [ha, hak]), ih,
          List.dedup_cons_of_not_mem ha, List.erase_cons_tail (by simpa using hak), List.cons_append]

theorem nodup_mruKeys (ups : List (K × RelTime)) : (mruKeys ups).Nodup :=
  List.nodup_reverse.mpr (List.nodup_dedup _)

theorem nodup_cachedKeys (n : Nat) (ups : List (K × RelTime)) : (cachedKeys n ups).Nodup :=
  (nodup_mruKeys ups).sublist (List.take_sublist _ _)

theorem mruKeys_concat (ups : List (K × RelTime)) (k : K) (t : RelTime) :
    mruKeys (ups ++ [(k, t)]) = k :: (mruKeys ups).erase k := by
  have hnd := List.nodup_dedup (ups.map Prod.fst)
  simp only [mruKeys, List.map_append, List.map_cons, List.map_nil, dedup_concat,
    List.reverse_append, List.reverse_cons, List.reverse_nil, List.nil_append, List.singleton_append,
    hnd.erase_eq_filter, (List.nodup_reverse.mpr hnd).erase_eq_filter, List.filter_reverse]

theorem erase_take_of_mem {l : List K} (hl : l.Nodup) {a : K} :
    ∀ {m : Nat}, a ∈ l.take m → (l.take m).erase a = (l.erase a).take (m - 1) := by
  induction l with
  | nil => simp
  | cons b l ih =>
    intro m hm
    cases m with
    | zero => simp at hm
    | succ m =>
      rw [List.take_succ_cons] at hm ⊢
      by_cases hab : b = a
      · subst hab; simp
      · have hm' : a ∈ l.take m := by simpa [Ne.symm hab] using hm
        have hpos : 0 < m := by
          rcases m with _ | m
          · simp at hm'
          · omega
        rw [List.erase_cons_tail (by simpa using hab), List.erase_cons_tail (by simpa using hab),
          ih (List.nodup_cons.mp hl).2 hm', Nat.add_sub_cancel, ← Nat.sub_add_cancel hpos,
          List.take_succ_cons, Nat.add_sub_cancel]

theorem take_erase_of_not_mem {l : List K} {a : K} :
    ∀ {m : Nat}, a ∉ l.take m → (l.erase a).take m = l.take m := by
  induction l with
  | nil => simp
  | cons b l ih =>
    intro m hm
    cases m with
    | zero => simp
    | succ m =>
      rw [List.take_succ_cons] at hm ⊢
      have hab : b ≠ a := fun e => hm (e ▸ List.mem_cons_self _ _)
      rw [List.erase_cons_tail (by simpa using hab), List.take_succ_cons,
        ih fun h => hm (List.mem_cons_of_mem _ h)]

theorem LastEntry.concat {n : Nat} {ups : List (K × RelTime)} {j : K} {i : Nat} {t : RelTime}
    (h : LastEntry n ups j i t) (k : K) (t' : RelTime) (hk : k = j → j ∈ cachedKeys n ups) :
    LastEntry n (ups ++ [(k, t')]) j i t := by
  obtain ⟨hi, hout, hlater⟩ := h
  have hlt : i < ups.length := (List.getElem?_eq_some_iff.mp hi).1
  refine ⟨by rw [List.getElem?_append_left hlt, hi], by rwa [List.take_append_of_le_length hlt.le],
    fun m t'' him hm => ?_⟩
  rcases Nat.lt_or_ge m ups.length with hmu | hmu
  · rw [List.getElem?_append_left hmu] at hm
    rw [List.take_append_of_le_length hmu.le]; exact hlater m t'' him hm
  · obtain rfl : m = ups.length := by
      by_contra hne
      simp [List.getElem?_eq_none (by simp; omega : (ups ++ [(k, t')]).length ≤ m)] at hm
    simp only [List.getElem?_concat_length, Option.some.injEq, Prod.mk.injEq] at hm
    simpa using hk hm.1

theorem LastEntry.concat_ne {n : Nat} {ups : List (K × RelTime)} {j k : K} {i : Nat}
    {t : RelTime} (h : LastEntry n ups j i t) (hjk : j ≠ k) (t' : RelTime) :
    LastEntry n (ups ++ [(k, t')]) j i t ∧
      ((ups ++ [(k, t')]).drop i).countP (·.1 = j) = (ups.drop i).countP (·.1 = j) := by
  have hlt : i < ups.length := (List.getElem?_eq_some_iff.mp h.1).1
  refine ⟨h.concat k t' fun e => absurd e.symm hjk, ?_⟩
  rw [List.drop_append_of_le_length hlt.le, List.countP_append]
  simp [Ne.symm hjk]

variable {n : Nat} {ups : List (K × RelTime)} {c : List (K × TopkeyItem)}

theorem describes_nil : Describes n ([] : List (K × RelTime)) [] :=
  ⟨by simp [cachedKeys, mruKeys], by simp⟩

/-- Step lemma: one more update keeps the cache showing what the declarative description says. -/
theorem Describes.concat (h : Describes n ups c) (hn : 0 < n) (k : K) (t : RelTime) :
    Describes n (ups ++ [(k, t)]) (lruUpdate n c k t) := by
  have hcached : cachedKeys n (ups ++ [(k, t)]) = k :: ((mruKeys ups).erase k).take (n - 1) := by
    rw [cachedKeys, mruKeys_concat, ← Nat.sub_add_cancel hn, List.take_succ_cons, Nat.add_sub_cancel]
  have htake : (ups ++ [(k, t)]).take ups.length = ups := by simp
  have hget : (ups ++ [(k, t)])[ups.length]? = some (k, t) := by simp
  have hlater : ∀ m t', ups.length < m → (ups ++ [(k, t)])[m]? = some (k, t') → False :=
    fun m t' hm hget => by
      simp [List.getElem?_eq_none (by simp; omega : (ups ++ [(k, t)]).length ≤ m)] at hget
  unfold lruUpdate
  cases hf : c.find? (·.1 = k) with
  | some p =>
    obtain ⟨k', it⟩ := p
    have hk : k' = k := by simpa using List.find?_some hf
    subst hk
    have hmem := List.mem_of_find?_eq_some hf
    have hin : k' ∈ cachedKeys n ups := h.keys_eq ▸ List.mem_map_of_mem Prod.fst hmem
    refine ⟨?_, ?_⟩
    · rw [hcached, List.map_cons, map_fst_filter_ne (h.keys_eq ▸ nodup_cachedKeys n ups), h.keys_eq,
        cachedKeys, erase_take_of_mem (nodup_mruKeys ups) hin]
    · simp only [List.mem_cons, List.mem_filter, Prod.mk.injEq]
      rintro j it' (⟨rfl, rfl⟩ | ⟨hj, hjk⟩)
      · obtain ⟨i, he, hcount⟩ := h.entry j it hmem
        have hlt : i < ups.length := (List.getElem?_eq_some_iff.mp he.1).1
        refine ⟨i, he.concat j t fun _ => hin, ?_⟩
        rw [List.drop_append_of_le_length hlt.le, List.countP_append]
        simp [hcount, BitVec.ofNat_add_ofNat]
      · have hjk : j ≠ k' := by simpa using hjk
        obtain ⟨i, he, hcount⟩ := h.entry j it' hj
        obtain ⟨he', hcount'⟩ := he.concat_ne hjk t
        exact ⟨i, he', hcount.trans (congrArg _ hcount'.symm)⟩
  | none =>
    have hout : k ∉ cachedKeys n ups := fun hm => by
      rw [← h.keys_eq] at hm
      obtain ⟨p, hp, rfl⟩ := List.mem_map.mp hm
      simpa using List.find?_eq_none.mp hf p hp
    dsimp only
    rw [List.take_cons hn]
    refine ⟨?_, ?_⟩
    · rw [hcached, List.map_cons, List.map_take, h.keys_eq, cachedKeys, List.take_take,
        Nat.min_eq_left (Nat.sub_le n 1), take_erase_of_not_mem fun hm =>
          hout (List.take_subset_take_left _ (Nat.sub_le n 1) hm)]
    · simp only [List.mem_cons, Prod.mk.injEq]
      rintro j it' (⟨rfl, rfl⟩ | hj)
      · refine ⟨ups.length, ⟨hget, by rwa [htake], fun m t' hm hm' => (hlater m t' hm hm').elim⟩, ?_⟩
        simp
      · have hj' := List.mem_of_mem_take hj
        have hjk : j ≠ k := fun e => hout (e ▸ h.keys_eq ▸ List.mem_map_of_mem Prod.fst hj')
        obtain ⟨i, he, hcount⟩ := h.entry j it' hj'
        obtain ⟨he', hcount'⟩ := he.concat_ne hjk t
        exact ⟨i, he', hcount.trans (congrArg _ hcount'.symm)⟩

/-- Run lemma: the abstract cache shows what the declarative description says. -/
theorem describes_lruRun (hn : 0 < n) (ups : List (K × RelTime)) :
    Describes n ups (lruRun n ups) := by
  suffices ∀ pre c, Describes n pre c →
      Describes n (pre ++ ups) (ups.foldl (fun c u => lruUpdate n c u.1 u.2) c) from
    this [] [] describes_nil
  induction ups with
  | nil => intro pre c h; simpa using h
  | cons u ups ih =>
    intro pre c h
    simpa using ih (pre ++ [u]) _ (h.concat hn u.1 u.2)

theorem Describes.toInt_count (h : Describes n ups c) {k : K} {it : TopkeyItem}
    (hk : (k, it) ∈ c) : ∃ i, LastEntry n ups k i it.tiCtime ∧
      ((ups.drop i).countP (·.1 = k) < 2 ^ 31 →
        it.tiAccessCount.toInt = (ups.drop i).countP (·.1 = k)) := by
  obtain ⟨i, he, hcount⟩ := h.entry k it hk
  exact ⟨i, he, fun hlt => hcount ▸ toInt_ofNat_of_lt hlt⟩

end Describe

section Refinement
variable {K : Type} [DecidableEq K]

theorem Refines.acceptVisitor_run {n : Nat} (hn : 0 < n) {calls : List (AllocFailure × K × RelTime)}
    {rs : List Bool} {s : Shard K} (hrun : (Shard.empty n).runUpdates calls = some (rs, s))
    (htrue : ∀ r ∈ rs, r = true) :
    s.acceptVisitor = some (lruRun n (calls.map Prod.snd)) := by
  have hr := (refines_empty hn).runUpdates calls hrun htrue
  rw [lruRun, List.foldl_map]
  exact hr.acceptVisitor

/-- Over any sequence of updates from a fresh shard with room for at least one key, calls
without allocation failure all succeed; and after any calls that all succeed, whatever
failed allocations they met, `accept_visitor` visits the entries of the LRU cache after the
same updates: each key once, the most recently updated keys first, with the time it last
entered and the number of its updates from then on, wrapped to the `int`; below 2^31 updates
the `int` is that number. -/
theorem shard_refines_lru (n : Nat) (hn : 1 ≤ n) (ups : List (K × RelTime)) :
    (∃ s, (Shard.empty n).runUpdates (ups.map ((AllocFailure.none, ·))) =
      some (ups.map fun _ => true, s)) ∧
    ∀ calls : List (AllocFailure × K × RelTime), calls.map Prod.snd = ups →
      ∀ rs s, (Shard.empty n).runUpdates calls = some (rs, s) → (∀ r ∈ rs, r = true) →
        s.acceptVisitor = some (lruRun n ups) ∧ ((lruRun n ups).map Prod.fst).Nodup ∧
          Describes n ups (lruRun n ups) ∧
          ∀ k it, (k, it) ∈ lruRun n ups → ∃ i, LastEntry n ups k i it.tiCtime ∧
            ((ups.drop i).countP (·.1 = k) < 2 ^ 31 →
              it.tiAccessCount.toInt = (ups.drop i).countP (·.1 = k)) := by
  refine ⟨(refines_empty hn).runUpdates_none ups, fun calls hcalls rs s hrun htrue => ?_⟩
  have hd := describes_lruRun hn ups
  exact ⟨hcalls ▸ Refines.acceptVisitor_run hn hrun htrue, hd.keys_eq ▸ nodup_cachedKeys n ups, hd,
    fun _ _ => hd.toInt_count⟩

/-- Keys 1, 2, 1 at times 0, 1, 2. -/
def exampleUps : List (Nat × RelTime) := [(1, 0), (2, 1), (1, 2)]

theorem shard_refines_lru_two :
    1 ≤ 2 ∧ ((∃ s, (Shard.empty 2).runUpdates (exampleUps.map ((AllocFailure.none, ·))) =
      some (exampleUps.map fun _ => true, s)) ∧
    ∀ calls : List (AllocFailure × Nat × RelTime), calls.map Prod.snd = exampleUps →
      ∀ rs s, (Shard.empty 2).runUpdates calls = some (rs, s) → (∀ r ∈ rs, r = true) →
        s.acceptVisitor = some (lruRun 2 exampleUps) ∧ ((lruRun 2 exampleUps).map Prod.fst).Nodup ∧
          Describes 2 exampleUps (lruRun 2 exampleUps) ∧
          ∀ k it, (k, it) ∈ lruRun 2 exampleUps → ∃ i, LastEntry 2 exampleUps k i it.tiCtime ∧
            ((exampleUps.drop i).countP (·.1 = k) < 2 ^ 31 →
              it.tiAccessCount.toInt = (exampleUps.drop i).countP (·.1 = k))) :=
  ⟨by decide, shard_refines_lru 2 (by decide) _⟩

/-- Updates of one key only, from a shard with room for one key: the shard shows that key with
the time of the first update and the number of updates, wrapped to the `int`. -/
theorem shard_replicate_visits (k : K) (t : RelTime) (m : Nat) :
    ∃ s, (Shard.empty 1).runUpdates ((List.replicate (m + 1) (k, t)).map ((AllocFailure.none, ·))) =
        some (List.replicate (m + 1) true, s) ∧
      s.acceptVisitor = some [(k, ⟨t, BitVec.ofNat 32 (m + 1)⟩)] := by
  obtain ⟨s, hs⟩ := (refines_empty (K := K) Nat.one_pos).runUpdates_none
    (List.replicate (m + 1) (k, t))
  rw [List.map_const', List.length_replicate] at hs
  have hv := Refines.acceptVisitor_run Nat.one_pos hs fun r hr => List.eq_of_mem_replicate hr
  simp only [List.map_map, List.map_replicate, Function.comp_apply] at hv
  exact ⟨s, hs, hv.trans (congrArg some (lruRun_replicate Nat.one_pos k t m))⟩

/-- `ti_access_count` overflows: after 2^31 successful updates of one key, all since it
entered, the shard shows the key with the `int` at -2^31. -/
theorem shard_access_count_wraps :
    ∃ s, (Shard.empty 1).runUpdates
          ((List.replicate (2 ^ 31) ((0 : Nat), (0 : RelTime))).map ((AllocFailure.none, ·))) =
        some (List.replicate (2 ^ 31) true, s) ∧
      s.acceptVisitor = some [(0, ⟨0, BitVec.ofNat 32 (2 ^ 31)⟩)] ∧
      (List.replicate (2 ^ 31) ((0 : Nat), (0 : RelTime))).countP (·.1 = 0) = 2 ^ 31 ∧
      (BitVec.ofNat 32 (2 ^ 31)).toInt = -2 ^ 31 := by
  obtain ⟨s, hs, hv⟩ := shard_replicate_visits (0 : Nat) 0 (2 ^ 31 - 1)
  rw [Nat.sub_add_cancel Nat.one_le_two_pow] at hs hv
  exact ⟨s, hs, hv, by rw [List.countP_replicate]; rfl, by decide⟩

/-- A `push_front` that throws after `emplace` inserted a new key returns `false` with the key
left in the map and not in the list; the next update of that key splices `list.end()`. -/
theorem updateKey_pushFront_failure_corrupts (n : Nat) (a : K) (t₀ t₁ : RelTime) :
    ∃ s, (Shard.empty (n + 1)).updateKey .pushFront a t₀ = some (false, s) ∧
      s.hash.keys = [a] ∧ s.list = [] ∧ s.updateKey .none a t₁ = none := by
  refine ⟨⟨n + 1, AList.singleton a (.new t₀), []⟩, ?_, AList.keys_singleton _ _, rfl, ?_⟩
  · simp [Shard.updateKey, Shard.empty, Shard.evict, AList.insert_empty, AList.singleton_entries,
      AList.not_mem_empty]
  · simp [Shard.updateKey, AList.mem_keys, AList.keys_singleton]

end Refinement

end Memcached.TopKeys
