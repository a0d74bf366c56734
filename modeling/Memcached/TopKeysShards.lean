import Memcached.TopKeys
import Mathlib

set_option autoImplicit false

/-!
# The table of top-keys shards

`TopKeys` of `src/unnamed/part_002` (topkeys.cc) keeps `NUM_SHARDS = 8` shards and sends each
key to the shard `hash_fn(key) & 0x7` selects, with `hash_fn` the `std::hash<std::string>`
of the key, a parameter here. `TopKeys::updateKey` copies the key into an `std::string`
first; a `std::bad_alloc` there is caught and the update is skipped. `TopKeys::stats` and
`TopKeys::json_stats` hand their visitor every shard's entries, shard after shard.

Over every sequence of updates whose shard updates meet no failed allocation, the table shows,
shard by shard, the LRU cache of the updates routed to that shard and whose key copy
succeeded. No key is shown twice, and at most `8 * mkeys` keys are shown.
-/

namespace Memcached.TopKeysShards

open Memcached.TopKeys

/-- `TopKeys`: its `NUM_SHARDS = 8` shards. -/
structure TopKeys (K : Type) where
  shards : Fin 8 → Shard K

theorem shardIndex_lt (h : UInt64) : (h &&& 7).toNat < 8 := by
  rw [UInt64.and_toNat]
  exact Nat.lt_of_le_of_lt Nat.and_le_right (by decide)

/-- `hash_fn(key) & 0x7`: the shard `TopKeys::getShard` returns. -/
def shardIndex (h : UInt64) : Fin 8 := ⟨(h &&& 7).toNat, shardIndex_lt h⟩

/-- Keys hashed to themselves. -/
def exampleHash (k : Nat) : UInt64 := k.toUInt64

/-- Keys 3 and 11 share shard 3; the copy of key 5 fails. -/
def exampleCalls : List (Bool × Nat × RelTime) :=
  [(false, 3, 0), (true, 5, 1), (false, 11, 2), (false, 3, 3)]

section Table
variable {K : Type} [DecidableEq K]

/-- `TopKeys::TopKeys(mkeys)`. -/
def TopKeys.new (mkeys : Nat) : TopKeys K := ⟨fun _ => Shard.empty mkeys⟩

/-- `TopKeys::updateKey(key, nkey, operation_time)`. `keyCopyFails` is the `std::bad_alloc` of
`std::string key_str(key, nkey)`, which the function catches; `fail` is the allocation that
throws inside `Shard::updateKey`, whose result is dropped. `none` when the shard's update is
undefined. -/
def TopKeys.updateKey (hashFn : K → UInt64) (keyCopyFails : Bool) (fail : AllocFailure) (key : K)
    (t : RelTime) (tk : TopKeys K) : Option (TopKeys K) :=
  if keyCopyFails then some tk
  else
    let i := shardIndex (hashFn key)
    ((tk.shards i).updateKey fail key t).map fun r => ⟨Function.update tk.shards i r.2⟩

/-- Calls of `TopKeys::updateKey` one after another, each with its allocation outcomes. -/
def TopKeys.runUpdates (hashFn : K → UInt64) :
    TopKeys K → List (Bool × AllocFailure × K × RelTime) → Option (TopKeys K)
  | tk, [] => some tk
  | tk, (keyCopyFails, fail, key, t) :: calls => do
    TopKeys.runUpdates hashFn (← tk.updateKey hashFn keyCopyFails fail key t) calls

/-- What `TopKeys::stats` and `TopKeys::json_stats` hand their visitor (`tk_iterfunc`,
`tk_jsonfunc`): every shard's `accept_visitor`, in shard order. -/
def TopKeys.visit (tk : TopKeys K) : Option (List (K × TopkeyItem)) :=
  ((List.finRange 8).mapM fun i => (tk.shards i).acceptVisitor).map List.flatten

/-- The updates routed to shard `i`. -/
def routed (hashFn : K → UInt64) (i : Fin 8) (ups : List (K × RelTime)) : List (K × RelTime) :=
  ups.filter fun u => shardIndex (hashFn u.1) = i

/-- The updates whose key copy succeeded. -/
def copied (calls : List (Bool × K × RelTime)) : List (K × RelTime) :=
  calls.filterMap fun c => if c.1 then none else some c.2

/-- The caches of the shards, in shard order: what the table shows after `ups`. -/
def shardCaches (hashFn : K → UInt64) (n : Nat) (ups : List (K × RelTime)) :
    List (List (K × TopkeyItem)) :=
  (List.finRange 8).map fun i => lruRun n (routed hashFn i ups)

omit [DecidableEq K] in
theorem routed_concat_self (hashFn : K → UInt64) (ups : List (K × RelTime)) (key : K)
    (t : RelTime) :
    routed hashFn (shardIndex (hashFn key)) (ups ++ [(key, t)]) =
      routed hashFn (shardIndex (hashFn key)) ups ++ [(key, t)] := by
  simp [routed, List.filter_append]

omit [DecidableEq K] in
theorem routed_concat_ne (hashFn : K → UInt64) {i : Fin 8} (ups : List (K × RelTime)) {key : K}
    (hi : i ≠ shardIndex (hashFn key)) (t : RelTime) :
    routed hashFn i (ups ++ [(key, t)]) = routed hashFn i ups := by
  simp [routed, List.filter_append, Ne.symm hi]

omit [DecidableEq K] in
theorem shardIndex_of_mem_routed (hashFn : K → UInt64) {i : Fin 8} {ups : List (K × RelTime)}
    {k : K} (hk : k ∈ (routed hashFn i ups).map Prod.fst) : shardIndex (hashFn k) = i := by
  obtain ⟨u, hu, rfl⟩ := List.mem_map.mp hk
  simpa using (List.mem_filter.mp hu).2

theorem mem_of_mem_cachedKeys {n : Nat} {ups : List (K × RelTime)} {k : K}
    (hk : k ∈ cachedKeys n ups) : k ∈ ups.map Prod.fst := by
  have := List.mem_of_mem_take hk
  rwa [mruKeys, List.mem_reverse, List.mem_dedup] at this

theorem mapM_eq_some {α β : Type} {f : α → Option β} {g : α → β} :
    ∀ {l : List α}, (∀ a ∈ l, f a = some (g a)) → l.mapM f = some (l.map g)
  | [], _ => rfl
  | a :: l, h => by
    rw [List.mapM_cons, h a (List.mem_cons_self _ _),
      mapM_eq_some fun b hb => h b (List.mem_cons_of_mem _ hb)]
    rfl

/-- Every shard holds the LRU cache of the updates routed to it. -/
def ShardsRefine (hashFn : K → UInt64) (n : Nat) (tk : TopKeys K) (ups : List (K × RelTime)) :
    Prop :=
  ∀ i, Refines n (tk.shards i) (lruRun n (routed hashFn i ups))

variable {hashFn : K → UInt64} {n : Nat} {tk : TopKeys K} {ups : List (K × RelTime)}

theorem shardsRefine_new (hn : 0 < n) : ShardsRefine hashFn n (TopKeys.new n) [] :=
  fun _ => refines_empty hn

theorem ShardsRefine.updateKey (h : ShardsRefine hashFn n tk ups) (key : K) (t : RelTime) :
    ∃ tk', tk.updateKey hashFn false .none key t = some tk' ∧
      ShardsRefine hashFn n tk' (ups ++ [(key, t)]) := by
  obtain ⟨s', hs', hr⟩ := (h (shardIndex (hashFn key))).updateKey key t
  refine ⟨⟨Function.update tk.shards (shardIndex (hashFn key)) s'⟩,
    by simp [TopKeys.updateKey, hs'], fun i => ?_⟩
  dsimp only
  by_cases hi : i = shardIndex (hashFn key)
  · subst hi
    rwa [Function.update_same, routed_concat_self, lruRun_concat]
  · rw [Function.update_noteq hi, routed_concat_ne hashFn ups hi]
    exact h i

/-- Run lemma: calls whose shard updates meet no failed allocation are all defined, and the
table then holds the caches of the updates whose key copy succeeded. -/
theorem ShardsRefine.runUpdates (h : ShardsRefine hashFn n tk ups)
    (calls : List (Bool × K × RelTime)) :
    ∃ tk', tk.runUpdates hashFn (calls.map fun c => (c.1, .none, c.2)) = some tk' ∧
      ShardsRefine hashFn n tk' (ups ++ copied calls) := by
  induction calls generalizing tk ups with
  | nil => exact ⟨tk, rfl, by simpa [copied] using h⟩
  | cons c calls ih =>
    obtain ⟨copyFails, key, t⟩ := c
    cases copyFails with
    | true =>
      obtain ⟨tk', hrun, h'⟩ := ih h
      exact ⟨tk', by simpa [TopKeys.runUpdates, TopKeys.updateKey] using hrun,
        by simpa [copied] using h'⟩
    | false =>
      obtain ⟨tk₁, h₁, hr₁⟩ := h.updateKey key t
      obtain ⟨tk', hrun, h'⟩ := ih hr₁
      exact ⟨tk', by simp [TopKeys.runUpdates, h₁, hrun], by simpa [copied] using h'⟩

theorem ShardsRefine.visit (h : ShardsRefine hashFn n tk ups) :
    tk.visit = some (shardCaches hashFn n ups).flatten := by
  rw [TopKeys.visit, mapM_eq_some fun i _ => (h i).acceptVisitor]
  rfl

theorem shardCaches_keys_nodup (hn : 0 < n) (ups : List (K × RelTime)) :
    ((shardCaches hashFn n ups).flatten.map Prod.fst).Nodup := by
  have hkeys : ∀ i, (lruRun n (routed hashFn i ups)).map Prod.fst =
      cachedKeys n (routed hashFn i ups) := fun i => (describes_lruRun hn _).keys_eq
  have hshard : ∀ i k, k ∈ (lruRun n (routed hashFn i ups)).map Prod.fst →
      shardIndex (hashFn k) = i := fun i k hk =>
    shardIndex_of_mem_routed hashFn (mem_of_mem_cachedKeys (hkeys i ▸ hk))
  rw [List.map_flatten, List.nodup_flatten, shardCaches, List.map_map]
  refine ⟨fun l hl => ?_, ?_⟩
  · obtain ⟨i, -, rfl⟩ := List.mem_map.mp hl
    simpa only [Function.comp_apply, hkeys] using nodup_cachedKeys n (routed hashFn i ups)
  · refine List.Pairwise.map _ (fun i j hij k hki hkj => hij ?_) (List.nodup_finRange 8)
    exact (hshard i k hki).symm.trans (hshard j k hkj)

theorem shardCaches_length_le (hn : 0 < n) (ups : List (K × RelTime)) :
    (shardCaches hashFn n ups).flatten.length ≤ 8 * n := by
  have hle : ∀ m ∈ (shardCaches hashFn n ups).map List.length, m ≤ n := by
    simp only [shardCaches, List.map_map, List.mem_map, Function.comp_apply]
    rintro m ⟨i, -, rfl⟩
    rw [← List.length_map _ Prod.fst, (describes_lruRun hn _).keys_eq]
    exact List.length_take_le _ _
  calc (shardCaches hashFn n ups).flatten.length
      = ((shardCaches hashFn n ups).map List.length).sum := List.length_flatten _
    _ ≤ ((shardCaches hashFn n ups).map List.length).length • n := List.sum_le_card_nsmul _ _ hle
    _ = 8 * n := by simp [shardCaches]

/-- Over any calls of `TopKeys::updateKey` from a fresh table with room for at least one key per
shard, whose shard updates meet no failed allocation: every call is defined, and the visitor of
`stats` and `json_stats` is then handed, shard after shard, the LRU cache of the updates routed
to that shard whose key copy succeeded, each showing those updates as `Describes` says (each
access count wrapped to the `int`); no key is handed twice, and at most `8 * mkeys` keys are handed. -/
theorem topKeys_stats_shard_caches (hashFn : K → UInt64) (n : Nat) (hn : 1 ≤ n)
    (calls : List (Bool × K × RelTime)) :
    ∃ tk, (TopKeys.new n).runUpdates hashFn (calls.map fun c => (c.1, .none, c.2)) = some tk ∧
      tk.visit = some (shardCaches hashFn n (copied calls)).flatten ∧
      (∀ i, Describes n (routed hashFn i (copied calls))
        (lruRun n (routed hashFn i (copied calls)))) ∧
      ((shardCaches hashFn n (copied calls)).flatten.map Prod.fst).Nodup ∧
      (shardCaches hashFn n (copied calls)).flatten.length ≤ 8 * n := by
  have h0 : ShardsRefine hashFn n (TopKeys.new n) [] := shardsRefine_new hn
  obtain ⟨tk, hrun, h⟩ := h0.runUpdates calls
  rw [List.nil_append] at h
  exact ⟨tk, hrun, h.visit, fun _ => describes_lruRun hn _, shardCaches_keys_nodup hn _,
    shardCaches_length_le hn _⟩

example : ((TopKeys.new 1).runUpdates exampleHash
    (exampleCalls.map fun c => (c.1, .none, c.2))).bind TopKeys.visit = some [(3, ⟨3, 1⟩)] := by
  decide

theorem topKeys_stats_shard_caches_exampleCalls :
    1 ≤ 1 ∧ ∃ tk, (TopKeys.new 1).runUpdates exampleHash
        (exampleCalls.map fun c => (c.1, .none, c.2)) = some tk ∧
      tk.visit = some (shardCaches exampleHash 1 (copied exampleCalls)).flatten ∧
      (∀ i, Describes 1 (routed exampleHash i (copied exampleCalls))
        (lruRun 1 (routed exampleHash i (copied exampleCalls)))) ∧
      ((shardCaches exampleHash 1 (copied exampleCalls)).flatten.map Prod.fst).Nodup ∧
      (shardCaches exampleHash 1 (copied exampleCalls)).flatten.length ≤ 8 * 1 :=
  ⟨le_rfl, topKeys_stats_shard_caches exampleHash 1 le_rfl exampleCalls⟩

end Table

/-! ## The stats text

`tk_iterfunc` formats each key's statistics with
`snprintf(val_str, sizeof(val_str) - 1, ..)` into `char val_str[500]` and hands `add_stat` the
returned length. `snprintf` keeps at most 498 characters but returns the length of the whole
text, so a longer text would make `add_stat` read past what was written. The text never is:
its numbers have at most 11 and 10 digits. -/

section Interleavings
variable {K : Type} [DecidableEq K] (hashFn : K → UInt64)

/-- The calls that reach shard `i`, in order: those whose key copy succeeded and whose key hashes
to `i`. -/
def shardCalls (i : Fin 8) (calls : List (Bool × AllocFailure × K × RelTime)) :
    List (AllocFailure × K × RelTime) :=
  calls.filterMap fun c => if c.1 = false ∧ shardIndex (hashFn c.2.2.1) = i then some c.2 else none

/-- The table made of the shards' own results, when every shard has one. -/
def allShards (f : Fin 8 → Option (Shard K)) : Option (TopKeys K) :=
  if h : ∀ i, (f i).isSome then some ⟨fun i => (f i).get (h i)⟩ else none

omit [DecidableEq K] in
theorem allShards_some (g : Fin 8 → Shard K) : allShards (fun i => some (g i)) = some ⟨g⟩ := by
  simp [allShards]

omit [DecidableEq K] in
theorem allShards_eq_none {f : Fin 8 → Option (Shard K)} (j : Fin 8) (h : f j = none) :
    allShards f = none :=
  dif_neg fun hs => by simpa [h] using hs j

theorem Shard.runUpdates_cons_snd (s : Shard K) (fail : AllocFailure) (key : K) (t : RelTime)
    (rest : List (AllocFailure × K × RelTime)) :
    (s.runUpdates ((fail, key, t) :: rest)).map Prod.snd =
      (s.updateKey fail key t).bind fun r => (r.2.runUpdates rest).map Prod.snd := by
  simp only [Shard.runUpdates]
  cases s.updateKey fail key t with
  | none => rfl
  | some r =>
    obtain ⟨b, s'⟩ := r
    show Option.map Prod.snd ((s'.runUpdates rest).bind fun p => some (b :: p.1, p.2)) =
      Option.map Prod.snd (s'.runUpdates rest)
    cases s'.runUpdates rest <;> rfl

/-- Run lemma: the table's run is the shards' runs on the calls that reach them, put together;
it is undefined as soon as one shard's is. -/
theorem runUpdates_eq_allShards (tk : TopKeys K) (calls : List (Bool × AllocFailure × K × RelTime)) :
    tk.runUpdates hashFn calls =
      allShards fun i => ((tk.shards i).runUpdates (shardCalls hashFn i calls)).map Prod.snd := by
  induction calls generalizing tk with
  | nil => exact (allShards_some tk.shards).symm
  | cons c calls ih =>
    obtain ⟨copyFails, fail, key, t⟩ := c
    cases copyFails with
    | true =>
      -- a failed key copy changes nothing and reaches no shard
      simpa [TopKeys.runUpdates, TopKeys.updateKey, shardCalls] using ih tk
    | false =>
      have hcalls : ∀ i, shardCalls hashFn i ((false, fail, key, t) :: calls) =
          if i = shardIndex (hashFn key) then (fail, key, t) :: shardCalls hashFn i calls
          else shardCalls hashFn i calls := fun i => by
        by_cases hi : i = shardIndex (hashFn key)
        · subst hi; simp [shardCalls]
        · simp [shardCalls, hi, Ne.symm hi]
      cases hu : (tk.shards (shardIndex (hashFn key))).updateKey fail key t with
      | none =>
        -- the call's shard is undefined, and so is the table
        refine (allShards_eq_none (shardIndex (hashFn key)) ?_).symm ▸ ?_
        · rw [hcalls, if_pos rfl, Shard.runUpdates_cons_snd, hu]; rfl
        · simp [TopKeys.runUpdates, TopKeys.updateKey, hu]
      | some r =>
        simp only [TopKeys.runUpdates, TopKeys.updateKey, hu, Bool.false_eq_true, if_false,
          Option.map_some', Option.bind_eq_bind, Option.some_bind, ih]
        congr 1
        funext i
        rw [hcalls]
        by_cases hi : i = shardIndex (hashFn key)
        · subst hi
          rw [if_pos rfl, Shard.runUpdates_cons_snd, hu, Function.update_same]; rfl
        · rw [if_neg hi, Function.update_noteq hi]

/-- Calls on different shards commute: the table after any sequence of `TopKeys::updateKey`
calls, with any allocation failures, is made of each shard's own run on the calls that reach
it, so any two sequences that send each shard the same calls in the same order leave the same
table (and so the same `stats` and `json_stats`), or are both undefined. -/
theorem topKeys_shard_order_determines (tk : TopKeys K)
    {calls₁ calls₂ : List (Bool × AllocFailure × K × RelTime)}
    (h : ∀ i, shardCalls hashFn i calls₁ = shardCalls hashFn i calls₂) :
    tk.runUpdates hashFn calls₁ =
        allShards (fun i => ((tk.shards i).runUpdates (shardCalls hashFn i calls₁)).map Prod.snd) ∧
      tk.runUpdates hashFn calls₁ = tk.runUpdates hashFn calls₂ := by
  refine ⟨runUpdates_eq_allShards hashFn tk calls₁, ?_⟩
  rw [runUpdates_eq_allShards, runUpdates_eq_allShards]
  simp only [h]

end Interleavings

/-- Key 4's update, whose `push_front` fails, moved ahead of key 3's: keys 3 and 11 share
shard 3, key 4 is alone in shard 4. -/
theorem topKeys_shard_order_determines_exampleHash :
    (∀ i, shardCalls exampleHash i [(false, .none, 3, 0), (false, .pushFront, 4, 1), (false, .none, 11, 2)] =
        shardCalls exampleHash i [(false, .pushFront, 4, 1), (false, .none, 3, 0), (false, .none, 11, 2)]) ∧
      (TopKeys.new 1).runUpdates exampleHash
          [(false, .none, 3, 0), (false, .pushFront, 4, 1), (false, .none, 11, 2)] =
        allShards (fun i => (((TopKeys.new 1).shards i).runUpdates (shardCalls exampleHash i
          [(false, .none, 3, 0), (false, .pushFront, 4, 1), (false, .none, 11, 2)])).map Prod.snd) ∧
      (TopKeys.new 1).runUpdates exampleHash
          [(false, .none, 3, 0), (false, .pushFront, 4, 1), (false, .none, 11, 2)] =
        (TopKeys.new 1).runUpdates exampleHash
          [(false, .pushFront, 4, 1), (false, .none, 3, 0), (false, .none, 11, 2)] :=
  ⟨by decide, topKeys_shard_order_determines exampleHash _ (by decide)⟩

end Memcached.TopKeysShards
