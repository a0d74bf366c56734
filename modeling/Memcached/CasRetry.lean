import Memcached.CasEngine

set_option autoImplicit false

/-!
# Auto-retry against the CAS-enforcing engine

A mutation whose request CAS is 0 retries when its `REPLACE` is refused with `KEY_EEXISTS`, up
to `MAXIMUM_ATTEMPTS` attempts in one entry into the executor. Each refusal is charged, on the
engine's ghost timeline, to a write of another writer made after the attempt's `get`, and no
write is charged twice: a retry is never caused by the command itself, for example by a CAS
left over from an earlier attempt. So when the JSON operation succeeds on every version the
command may read and the engine refuses nothing else, the command, resumed after each
`EWOULDBLOCK`, ends with `SUCCESS` unless the other writers wrote 100 times while it ran.
-/

namespace Memcached.CasRetry
open Memcached.Protocol Memcached.SubdocExecutor Memcached.ExecutorRuns Memcached.CasEngine

/-! ## Charging conflicts to writes -/

/-- The marks since the last `get`: the window of the attempt in progress. -/
def sinceGet (l : List Mark) : List Mark := (l.reverse.takeWhile (· != .get)).reverse

@[simp] theorem sinceGet_append_get (l : List Mark) : sinceGet (l ++ [.get]) = [] := by
  simp [sinceGet]

theorem sinceGet_append_of_ne (l : List Mark) {m : Mark} (hm : m ≠ .get) :
    sinceGet (l ++ [m]) = sinceGet l ++ [m] := by
  simp [sinceGet, List.takeWhile_cons, hm]

theorem sinceGet_append_writes (l : List Mark) (k : Nat) :
    sinceGet (l ++ List.replicate k .foreignWrite) = sinceGet l ++ List.replicate k .foreignWrite := by
  induction k with
  | zero => simp
  | succ k ih =>
    rw [List.replicate_succ', ← List.append_assoc, sinceGet_append_of_ne _ (by decide), ih,
      List.append_assoc]

/-- One while the window in progress holds a write of another writer that no `KEY_EEXISTS`
has been charged to. -/
def credit (l : List Mark) : Nat :=
  if .foreignWrite ∈ sinceGet l ∧ .store .keyEexists ∉ sinceGet l then 1 else 0

theorem credit_le_one (l : List Mark) : credit l ≤ 1 := by
  unfold credit; split <;> omega

/-- Every `KEY_EEXISTS` store comes after a `get`, and its window holds a write of another
writer and no other `KEY_EEXISTS`. Charging each to a write of its window, no write is charged
twice. -/
structure Accounted (l : List Mark) : Prop where
  explained : ∀ A C, l = A ++ .store .keyEexists :: C →
    .get ∈ A ∧ .foreignWrite ∈ sinceGet A ∧ .store .keyEexists ∉ sinceGet A
  count : l.count (.store .keyEexists) + credit l ≤ l.count .foreignWrite

theorem accounted_nil : Accounted [] :=
  ⟨fun A C h => by simp at h, by simp [credit, sinceGet]⟩

theorem Accounted.count_le {l : List Mark} (h : Accounted l) :
    l.count (.store .keyEexists) ≤ l.count .foreignWrite :=
  (Nat.le_add_right _ _).trans h.count

theorem Accounted.concat {l : List Mark} (h : Accounted l) {m : Mark}
    (hm : m = .store .keyEexists →
      .get ∈ l ∧ .foreignWrite ∈ sinceGet l ∧ .store .keyEexists ∉ sinceGet l) :
    Accounted (l ++ [m]) := by
  refine ⟨fun A C hAC => ?_, ?_⟩
  · rcases List.eq_nil_or_concat C with rfl | ⟨C, b, rfl⟩
    · obtain ⟨rfl, hb⟩ := List.append_inj' hAC rfl
      exact hm (List.singleton_inj.mp hb)
    · have hl : l ++ [m] = (A ++ .store .keyEexists :: C) ++ [b] := by simp [hAC]
      exact h.explained A C (List.append_inj' hl rfl).1
  · have hc := h.count
    have h₁ := credit_le_one (l ++ [m])
    rcases m with _ | _ | r
    · simp only [List.count_append]; simp; omega
    · simp [List.count_append, credit]; omega
    · by_cases hr : r = .keyEexists
      · subst hr
        obtain ⟨-, hf, hn⟩ := hm rfl
        have h₀ : credit (l ++ [.store .keyEexists]) = 0 := by
          simp [credit, sinceGet_append_of_ne]
        have h₂ : credit l = 1 := by simp [credit, hf, hn]
        simp [List.count_append, h₀]; omega
      · have h₀ : credit (l ++ [.store r]) = credit l := by
          simp [credit, sinceGet_append_of_ne, Ne.symm hr]
        simp [List.count_append, h₀, Ne.symm hr]; omega

theorem Accounted.append_writes {l : List Mark} (h : Accounted l) (k : Nat) :
    Accounted (l ++ List.replicate k .foreignWrite) := by
  induction k with
  | zero => simpa using h
  | succ k ih => rw [List.replicate_succ', ← List.append_assoc]; exact ih.concat (by simp)

/-! ## The engine on the timeline -/

/-- `s'` comes after `s` in one run: marks are only added, decisions only consumed. -/
structure Later (s s' : CasStore) : Prop where
  trace : List.IsPrefix s.trace s'.trace
  script : List.IsSuffix s'.script s.script

theorem Later.refl (s : CasStore) : Later s s := ⟨List.prefix_refl _, List.suffix_refl _⟩

theorem Later.trans {s₁ s₂ s₃ : CasStore} (h₁ : Later s₁ s₂) (h₂ : Later s₂ s₃) : Later s₁ s₃ :=
  ⟨h₁.trace.trans h₂.trace, h₂.script.trans h₁.script⟩

/-- No decision refuses a call with `KEY_EEXISTS`, which only a CAS mismatch returns, and the
conflicts so far are accounted. -/
structure Ledger (s : CasStore) : Prop where
  script : ∀ d ∈ s.script, d.result ≠ .keyEexists
  accounted : Accounted s.trace

theorem Ledger.later {s s' : CasStore} (h : Ledger s) (hs : Later s s')
    (ha : Accounted s'.trace) : Ledger s' :=
  ⟨fun d hd => h.script d (hs.script.subset hd), ha⟩

/-- `c->item`, when set, is the snapshot of the last `get`: the current version unless another
writer has written since, and no store since has been refused with `KEY_EEXISTS`. -/
def Held (s : CasStore) (item : Option ItemRef) : Prop :=
  ∀ it, item = some it → ∃ i, s.items[it]? = some (.snapshot i) ∧ .get ∈ s.trace ∧
    (i + 1 = s.history.length ∨ .foreignWrite ∈ sinceGet s.trace) ∧
    .store .keyEexists ∉ sinceGet s.trace

@[simp] theorem held_none (s : CasStore) : Held s none := by simp [Held]

theorem Held.writes {s s' : CasStore} {item : Option ItemRef} (h : Held s item) {ws : List Version}
    (hh : s'.history = s.history ++ ws)
    (ht : s'.trace = s.trace ++ List.replicate ws.length .foreignWrite)
    (hi : List.IsPrefix s.items s'.items) : Held s' item := by
  intro it hit
  obtain ⟨i, h₁, h₂, h₃, h₄⟩ := h it hit
  refine ⟨i, getElem?_of_prefix hi h₁, by simp [ht, h₂], ?_,
    by simp [ht, sinceGet_append_writes, h₄]⟩
  rcases ws with _ | ⟨v, ws⟩
  · simpa [hh, ht] using h₃
  · exact .inr (by simp [ht, sinceGet_append_writes])

/-- A fair script: it decides only `SUCCESS` or `EWOULDBLOCK`, and `ok` (the JSON operation
succeeding) holds of the current version, of every version still to be written, and of the
version `c->item` holds. -/
structure Fair (ok : Version → Prop) (s : CasStore) (item : Option ItemRef) : Prop where
  decisions : ∀ d ∈ s.script, d.result = .success ∨ d.result = .ewouldblock
  current : ∃ v, s.history.getLast? = some v ∧ ok v
  pending : ∀ d ∈ s.script, ∀ v ∈ d.writes, ok v
  held : ∀ it, item = some it →
    ∃ i v, s.items[it]? = some (.snapshot i) ∧ s.history[i]? = some v ∧ ok v

section Engine
variable {ok : Version → Prop}

theorem Fair.result_ne_keyEexists {s : CasStore} {item : Option ItemRef} (h : Fair ok s item) :
    ∀ d ∈ s.script, d.result ≠ .keyEexists := fun d hd => by
  rcases h.decisions d hd with h | h <;> rw [h] <;> decide

theorem Fair.history_ne_nil {s : CasStore} {item : Option ItemRef} (h : Fair ok s item) :
    s.history ≠ [] := by
  obtain ⟨v, hv, -⟩ := h.current
  rintro h'
  simp [h'] at hv

theorem Fair.mono {s s' : CasStore} {item : Option ItemRef} (h : Fair ok s item)
    (hh : s'.history = s.history) (hs : s'.script = s.script)
    (hi : List.IsPrefix s.items s'.items) : Fair ok s' item :=
  ⟨hs ▸ h.decisions, hh ▸ h.current, hs ▸ h.pending, fun it hit => by
    obtain ⟨i, v, hsnap, hv, hok⟩ := h.held it hit
    exact ⟨i, v, getElem?_of_prefix hi hsnap, hh ▸ hv, hok⟩⟩

theorem Fair.clear {s : CasStore} {item : Option ItemRef} (h : Fair ok s item) : Fair ok s none :=
  ⟨h.decisions, h.current, h.pending, fun _ h => by cases h⟩

/-- What `next` does: with the script empty, nothing; otherwise it applies the first
decision's writes, marks them, and drops the decision. -/
theorem next_cases (s : CasStore) :
    s.script = [] ∧ s.next = (⟨[], .success, 0⟩, s) ∨
      ∃ rest, s.script = s.next.1 :: rest ∧
        s.next.2 =
          { s with history := s.history ++ s.next.1.writes, script := rest,
                   trace := s.trace ++ List.replicate s.next.1.writes.length .foreignWrite } := by
  unfold CasStore.next
  split
  · exact .inl ⟨‹_›, rfl⟩
  · exact .inr ⟨_, ‹_›, rfl⟩

theorem next_writes (s : CasStore) : ∃ ws, s.next.2.history = s.history ++ ws ∧
    s.next.2.trace = s.trace ++ List.replicate ws.length .foreignWrite ∧
    s.next.2.items = s.items ∧ Later s s.next.2 := by
  rcases next_cases s with ⟨-, h⟩ | ⟨rest, hs, h⟩ <;> rw [h]
  · exact ⟨[], by simp, by simp, rfl, .refl s⟩
  · exact ⟨_, rfl, rfl, rfl, List.prefix_append _ _, by rw [hs]; exact List.suffix_cons _ _⟩

theorem Ledger.next {s : CasStore} (h : Ledger s) : Ledger s.next.2 := by
  obtain ⟨ws, -, ht, -, hl⟩ := next_writes s
  exact h.later hl (ht ▸ h.accounted.append_writes _)

theorem Ledger.next_result {s : CasStore} (h : Ledger s) : s.next.1.result ≠ .keyEexists := by
  rcases next_cases s with ⟨-, h'⟩ | ⟨rest, hs, -⟩
  · simp [h']
  · exact h.script _ (by simp [hs])

theorem Held.next {s : CasStore} {item : Option ItemRef} (h : Held s item) : Held s.next.2 item := by
  obtain ⟨ws, hh, ht, hi, -⟩ := next_writes s
  exact h.writes hh ht (hi ▸ List.prefix_refl _)

theorem Fair.next {s : CasStore} {item : Option ItemRef} (h : Fair ok s item) :
    Fair ok s.next.2 item ∧ (s.next.1.result = .success ∨
      s.next.1.result = .ewouldblock ∧ s.next.2.script.length < s.script.length) := by
  rcases next_cases s with ⟨-, h'⟩ | ⟨rest, hs, h'⟩
  · rw [h']; exact ⟨h, .inl rfl⟩
  · have hmem : s.next.1 ∈ s.script := by simp [hs]
    refine ⟨⟨fun d hd => h.decisions d (by simp [hs, h' ▸ hd]), ?_,
      fun d hd => h.pending d (by simp [hs, h' ▸ hd]), fun it hit => ?_⟩, ?_⟩
    · rw [h', List.getLast?_append]
      cases hw : s.next.1.writes.getLast? with
      | none => exact h.current
      | some v =>
        obtain ⟨ys, hys⟩ := List.getLast?_eq_some_iff.mp hw
        exact ⟨v, rfl, h.pending _ hmem v (by simp [hys])⟩
    · obtain ⟨i, v, hsnap, hv, hok⟩ := h.held it hit
      exact ⟨i, v, by rw [h']; exact hsnap, by rw [h']; exact getElem?_of_prefix (List.prefix_append _ _) hv,
        hok⟩
    · rcases h.decisions _ hmem with hr | hr
      · exact .inl hr
      · exact .inr ⟨hr, by simp [h', hs]⟩

theorem casGet_cases (s : CasStore) :
    s.next.1.result ≠ .success ∧ casGet s = (s.next.2, s.next.1.result, 0) ∨
      s.next.1.result = .success ∧ s.next.2.history = [] ∧ casGet s = (s.next.2, .keyEnoent, 0) ∨
      s.next.1.result = .success ∧ s.next.2.history ≠ [] ∧ casGet s =
        ({ s.next.2 with items := s.next.2.items ++ [.snapshot (s.next.2.history.length - 1)],
                         trace := s.next.2.trace ++ [.get] }, .success, s.next.2.items.length) := by
  unfold casGet
  dsimp only
  split_ifs with h₁ h₂
  · exact .inl ⟨h₁, rfl⟩
  · exact .inr (.inl ⟨not_not.mp h₁, h₂, rfl⟩)
  · exact .inr (.inr ⟨not_not.mp h₁, h₂, rfl⟩)

theorem ledger_casGet {s : CasStore} (h : Ledger s) : Later s (casGet s).1 ∧ Ledger (casGet s).1 := by
  obtain ⟨-, -, -, -, hl⟩ := next_writes s
  rcases casGet_cases s with ⟨-, hg⟩ | ⟨-, -, hg⟩ | ⟨-, -, hg⟩ <;> rw [hg]
  · exact ⟨hl, h.next⟩
  · exact ⟨hl, h.next⟩
  · have hm : Later s.next.2 { s.next.2 with items := s.next.2.items ++
        [.snapshot (s.next.2.history.length - 1)], trace := s.next.2.trace ++ [.get] } :=
      ⟨List.prefix_append _ _, List.suffix_refl _⟩
    exact ⟨hl.trans hm, h.next.later hm (h.next.accounted.concat (by simp))⟩

theorem held_casGet {s : CasStore} (h : (casGet s).2.1 = .success) :
    Held (casGet s).1 (some (casGet s).2.2) := by
  rcases casGet_cases s with ⟨h₁, hg⟩ | ⟨-, -, hg⟩ | ⟨-, hne, hg⟩ <;> rw [hg] at h ⊢
  · exact absurd h h₁
  · cases h
  · rintro it ⟨⟩
    have := List.length_pos.mpr hne
    exact ⟨s.next.2.history.length - 1, by simp, by simp, .inl (by simp; omega), by simp⟩

theorem fair_casGet {s : CasStore} {item : Option ItemRef} (h : Fair ok s item) :
    (casGet s).2.1 = .success ∧ Fair ok (casGet s).1 (some (casGet s).2.2) ∨
      (casGet s).2.1 = .ewouldblock ∧ Fair ok (casGet s).1 item ∧
        (casGet s).1.script.length < s.script.length := by
  obtain ⟨hf, hr⟩ := h.next
  rcases casGet_cases s with ⟨h₁, hg⟩ | ⟨-, hnil, -⟩ | ⟨-, -, hg⟩
  · rw [hg]
    exact .inr ⟨hr.resolve_left h₁ |>.1, hf, hr.resolve_left h₁ |>.2⟩
  · exact absurd hnil hf.history_ne_nil
  · rw [hg]
    obtain ⟨v, hv, hok⟩ := hf.current
    refine .inl ⟨rfl, hf.decisions, hf.current, hf.pending, fun it hit => ?_⟩
    cases hit
    exact ⟨s.next.2.history.length - 1, v, by simp, by rw [← List.getLast?_eq_getElem?]; exact hv,
      hok⟩

theorem casAllocate_cases (s : CasStore) (n : Nat) (dt : UInt8) :
    s.next.1.result ≠ .success ∧ casAllocate s n dt = (s.next.2, s.next.1.result, 0) ∨
      s.next.1.result = .success ∧ casAllocate s n dt =
        ({ s.next.2 with items := s.items ++ [.fresh dt (List.replicate n 0) 0] }, .success,
          s.items.length) := by
  have hitems : s.next.2.items = s.items := (next_writes s).choose_spec.2.2.1
  unfold casAllocate
  dsimp only
  split_ifs with h₁
  · exact .inl ⟨h₁, rfl⟩
  · exact .inr ⟨not_not.mp h₁, by rw [hitems]⟩

theorem casStore_cases (s : CasStore) (it : ItemRef) :
    s.next.1.result ≠ .success ∧ casStore s it =
        ({ s.next.2 with trace := s.next.2.trace ++ [.store s.next.1.result] }, s.next.1.result, 0) ∨
      s.next.1.result = .success ∧ (∃ dt value c cur, s.items[it]? = some (.fresh dt value c) ∧
        s.next.2.history.getLast? = some cur ∧
        (c ≠ 0 ∧ c ≠ cur.cas ∧ casStore s it =
            ({ s.next.2 with trace := s.next.2.trace ++ [.store .keyEexists] }, .keyEexists, 0) ∨
          ¬(c ≠ 0 ∧ c ≠ cur.cas) ∧ casStore s it =
            ({ s.next.2 with history := s.next.2.history ++ [⟨dt, value, s.next.1.cas⟩],
                             trace := s.next.2.trace ++ [.store .success] }, .success, s.next.1.cas))) ∨
      s.next.1.result = .success ∧
        (∀ dt value c, s.items[it]? = some (.fresh dt value c) → s.next.2.history = []) ∧
        ∃ r, (r = .keyEnoent ∨ r = .einval) ∧
          casStore s it = ({ s.next.2 with trace := s.next.2.trace ++ [.store r] }, r, 0) := by
  have hitems : s.next.2.items = s.items := (next_writes s).choose_spec.2.2.1
  unfold casStore
  dsimp only
  by_cases h₁ : s.next.1.result = .success
  · rw [if_neg (not_not.mpr h₁)]
    unfold casReplace
    split
    · rename_i dt value c cur hit hcur
      refine .inr (.inl ⟨h₁, dt, value, c, cur, hitems ▸ hit, hcur, ?_⟩)
      split_ifs with hc
      · exact .inl ⟨hc.1, hc.2, rfl⟩
      · exact .inr ⟨hc, rfl⟩
    · rename_i hit hcur
      exact .inr (.inr ⟨h₁, fun _ _ _ _ => List.getLast?_eq_none_iff.mp hcur, _, .inl rfl, rfl⟩)
    · rename_i hne _
      refine .inr (.inr ⟨h₁, fun dt value c hit => ?_, _, .inr rfl, rfl⟩)
      cases hcur : s.next.2.history.getLast? with
      | none => exact List.getLast?_eq_none_iff.mp hcur
      | some cur => exact absurd hcur (hne dt value c cur (by rwa [hitems]))
  · rw [if_pos h₁]
    exact .inl ⟨h₁, rfl⟩

theorem casStore_frame (s : CasStore) (it : ItemRef) :
    Later s (casStore s it).1 ∧
      (casStore s it).1.trace = s.next.2.trace ++ [.store (casStore s it).2.1] ∧
      (casStore s it).1.items = s.items ∧
      ((casStore s it).2.1 ≠ .success → (casStore s it).1.history = s.next.2.history) := by
  obtain ⟨-, -, -, hitems, hl⟩ := next_writes s
  have hm : ∀ (h : List Version) (m : Mark),
      Later s { s.next.2 with history := h, trace := s.next.2.trace ++ [m] } :=
    fun _ _ => hl.trans ⟨List.prefix_append _ _, List.suffix_refl _⟩
  rcases casStore_cases s it with ⟨-, hs⟩ | ⟨-, _, _, _, _, -, -, ⟨-, -, hs⟩ | ⟨-, hs⟩⟩ |
    ⟨-, -, _, -, hs⟩ <;> rw [hs]
  · exact ⟨hm _ _, rfl, hitems, fun _ => rfl⟩
  · exact ⟨hm _ _, rfl, hitems, fun _ => rfl⟩
  · exact ⟨hm _ _, rfl, hitems, fun h => absurd rfl h⟩
  · exact ⟨hm _ _, rfl, hitems, fun _ => rfl⟩

/-- A `KEY_EEXISTS` store, when no decision refuses with it, is a CAS mismatch. -/
theorem casStore_keyEexists {s : CasStore} {it : ItemRef} (hl : Ledger s)
    (hr : (casStore s it).2.1 = .keyEexists) :
    ∃ dt value c cur, s.items[it]? = some (.fresh dt value c) ∧
      s.next.2.history.getLast? = some cur ∧ c ≠ 0 ∧ c ≠ cur.cas := by
  rcases casStore_cases s it with ⟨-, hs⟩ | ⟨-, dt, value, c, cur, hit, hcur, ⟨hc, hc', -⟩ | ⟨-, hs⟩⟩ |
    ⟨-, -, r, hr', hs⟩
  · rw [hs] at hr; exact absurd hr hl.next_result
  · exact ⟨dt, value, c, cur, hit, hcur, hc, hc'⟩
  · rw [hs] at hr; cases hr
  · rw [hs] at hr; subst hr; rcases hr' with h | h <;> cases h

theorem ledger_casStore {s : CasStore} {it : ItemRef} (h : Ledger s)
    (hexp : (casStore s it).2.1 = .keyEexists → .get ∈ s.next.2.trace ∧
      .foreignWrite ∈ sinceGet s.next.2.trace ∧ .store .keyEexists ∉ sinceGet s.next.2.trace) :
    Ledger (casStore s it).1 := by
  obtain ⟨hl, ht, -, -⟩ := casStore_frame s it
  exact h.later hl (ht ▸ h.next.accounted.concat fun hm => hexp (Mark.store.inj hm))

theorem held_casStore {s : CasStore} {it : ItemRef} {item : Option ItemRef} (h : Held s item)
    (hr : (casStore s it).2.1 ≠ .success) (hr' : (casStore s it).2.1 ≠ .keyEexists) :
    Held (casStore s it).1 item := by
  obtain ⟨-, ht, hitems, hh⟩ := casStore_frame s it
  obtain ⟨-, -, -, hitems', -⟩ := next_writes s
  have hs : sinceGet (casStore s it).1.trace =
      sinceGet s.next.2.trace ++ [.store (casStore s it).2.1] := by
    rw [ht, sinceGet_append_of_ne _ (by simp)]
  intro i hi
  obtain ⟨j, h₁, h₂, h₃, h₄⟩ := h.next i hi
  refine ⟨j, by rw [hitems, ← hitems']; exact h₁, by simp [ht, h₂], ?_, ?_⟩
  · rw [hh hr, hs]; exact h₃.imp_right (List.mem_append_left _)
  · rw [hs]; simpa [Ne.symm hr'] using h₄

/-- The snapshot `c->item` holds gave the fresh item its CAS: a `KEY_EEXISTS` store then has
another writer's write in its window, after a `get` and no other `KEY_EEXISTS`. -/
theorem explain_conflict {s : CasStore} {it o i : ItemRef} {v : Version} {dt : UInt8}
    {value : Bytes} (hl : Ledger s) (ha : Held s (some it)) (hit : s.items[it]? = some (.snapshot i))
    (hv : s.history[i]? = some v) (ho : s.items[o]? = some (.fresh dt value v.cas))
    (hr : (casStore s o).2.1 = .keyEexists) :
    .get ∈ s.next.2.trace ∧ .foreignWrite ∈ sinceGet s.next.2.trace ∧
      .store .keyEexists ∉ sinceGet s.next.2.trace := by
  obtain ⟨j, hj, hget, hcur, hnc⟩ := ha it rfl
  rw [hit] at hj
  cases hj
  obtain ⟨dt', value', c, cur, ho', hlast, -, hc⟩ := casStore_keyEexists hl hr
  rw [ho] at ho'
  cases ho'
  obtain ⟨ws, hh, ht, -, -⟩ := next_writes s
  rw [ht, sinceGet_append_writes]
  refine ⟨List.mem_append_left _ hget, ?_, by simp [hnc]⟩
  rcases ws with _ | ⟨w, ws⟩
  · refine List.mem_append_left _ (hcur.resolve_left fun hlen => hc ?_)
    rw [hh, List.append_nil, List.getLast?_eq_getElem?, ← hlen, Nat.add_sub_cancel, hv] at hlast
    cases hlast
    rfl
  · simp

theorem count_lt_casStore {s : CasStore} {it : ItemRef} (hr : (casStore s it).2.1 = .keyEexists) :
    s.trace.count (.store .keyEexists) < (casStore s it).1.trace.count (.store .keyEexists) := by
  obtain ⟨-, ht, -, -⟩ := casStore_frame s it
  have := (next_writes s).choose_spec.2.2.2.trace.count_le (.store .keyEexists)
  rw [ht, hr, List.count_append]
  simp only [List.count_singleton_self]
  omega

theorem fair_casStore {s : CasStore} {it : ItemRef} {item : Option ItemRef} {dt : UInt8}
    {value : Bytes} {c : UInt64} (h : Fair ok s item) (hit : s.items[it]? = some (.fresh dt value c)) :
    (casStore s it).2.1 = .success ∨
      (casStore s it).2.1 = .keyEexists ∧ Fair ok (casStore s it).1 item ∨
      (casStore s it).2.1 = .ewouldblock ∧ Fair ok (casStore s it).1 item ∧
        (casStore s it).1.script.length < s.script.length := by
  obtain ⟨hf, hr⟩ := h.next
  have hmark : ∀ m, Fair ok { s.next.2 with trace := s.next.2.trace ++ [m] } item :=
    fun _ => hf.mono rfl rfl (List.prefix_refl _)
  rcases casStore_cases s it with ⟨h₁, hs⟩ | ⟨-, _, _, _, _, -, -, ⟨-, -, hs⟩ | ⟨-, hs⟩⟩ |
    ⟨-, hnil, -⟩ <;> try rw [hs]
  · exact .inr (.inr ⟨(hr.resolve_left h₁).1, hmark _, (hr.resolve_left h₁).2⟩)
  · exact .inr (.inl ⟨rfl, hmark _⟩)
  · exact .inl rfl
  · exact absurd (hnil _ _ _ hit) hf.history_ne_nil

end Engine

/-! ## The executor's steps on the timeline -/

section Frames
variable {σ : Type} (env : Env σ) (traits : CmdTraits) (req : SubdocRequest)

theorem subdocFetch_continue {w : World σ} {ret : EngineErrorCode}
    (h : (subdocFetch env req w ret).2 = true) :
    (subdocFetch env req w ret).1.conn.ewouldblock = w.conn.ewouldblock ∧
      (subdocFetch env req w ret).1.conn.item.isSome ∧
      responses (subdocFetch env req w ret).1.log = responses w.log := by
  revert h
  unfold subdocFetch
  cases hitem : w.conn.item with
  | some it => simp [hitem]
  | none =>
    by_cases hret : ret = .success
    · simp only [hret, if_true, engineGet]
      split_ifs <;> simp
    · simp only [hret, if_false]
      split_ifs <;> simp

theorem subdocOperate_frame (w : World σ) :
    (subdocOperate env traits req w).1.eng = w.eng ∧
      (subdocOperate env traits req w).1.conn.item = w.conn.item ∧
      (subdocOperate env traits req w).1.conn.ewouldblock = w.conn.ewouldblock := by
  unfold subdocOperate
  split
  · simp
  · split_ifs
    · simp
    · split
      · simp
      · split
        · simp
        · dsimp only
          split_ifs <;> simp

theorem subdocResponse_frame (w : World σ) :
    (subdocResponse env traits w).eng = w.eng ∧
      (subdocResponse env traits w).conn.ewouldblock = w.conn.ewouldblock := by
  unfold subdocResponse
  split
  · simp
  · dsimp only
    split_ifs <;> simp

theorem subdocResponse_responds {w : World σ} {ctx : SubdocCmdContext}
    (hadd : ∀ n, env.addBinHeader n = true) (hctx : w.conn.commandContext = some ctx) :
    ∃ value, responses (subdocResponse env traits w).log =
      responses w.log ++ [.subdoc w.conn.cas value] := by
  unfold subdocResponse
  simp only [hctx, hadd, Bool.not_true, Bool.false_eq_true, if_false]
  exact ⟨if traits.responseHasValue then ctx.result.matchloc else [], by simp⟩

end Frames

section Steps
variable (env : Env CasStore) (traits : CmdTraits) (req : SubdocRequest)
  (he : env.engine = casEngine)
include he

theorem releaseItemAndContext_frame (w : World CasStore) :
    (releaseItemAndContext env w).eng = w.eng ∧ (releaseItemAndContext env w).conn.item = none ∧
      (releaseItemAndContext env w).conn.commandContext = none ∧
      (releaseItemAndContext env w).conn.ewouldblock = w.conn.ewouldblock ∧
      responses (releaseItemAndContext env w).log = responses w.log := by
  rcases hitem : w.conn.item with _ | it <;>
    rcases hc : w.conn.commandContext with _ | ⟨inDoc, inCas, result, _ | o⟩ <;>
    simp [releaseItemAndContext, hitem, hc, engineRelease, he, casEngine]

theorem subdocStore_spec (w : World CasStore) (o : ItemRef) :
    (subdocStore env req w o).1.eng = (casStore w.eng o).1 ∧
      (subdocStore env req w o).2 = (casStore w.eng o).2.1 ∧
      (subdocStore env req w o).1.conn.item = w.conn.item ∧
      ((casStore w.eng o).2.1 ≠ .ewouldblock →
        (subdocStore env req w o).1.conn.ewouldblock = w.conn.ewouldblock) ∧
      ((casStore w.eng o).2.1 = .success ∨ (casStore w.eng o).2.1 = .keyEexists ∨
        (casStore w.eng o).2.1 = .ewouldblock →
        responses (subdocStore env req w o).1.log = responses w.log) ∧
      ((casStore w.eng o).2.1 = .ewouldblock → (subdocStore env req w o).1.conn.ewouldblock = true) := by
  unfold subdocStore engineStore
  simp only [he, casEngine]
  rcases casStore w.eng o with ⟨s, code, c⟩
  dsimp only
  split_ifs with h₁ h₂ h₃ h₄ <;> simp_all

theorem subdocAllocate_cases {w w' : World CasStore} {ctx : SubdocCmdContext}
    {ret : EngineErrorCode} {x : EngineErrorCode ⊕ ItemRef}
    (h : subdocAllocate env req w ctx ret (ctx.result.newdoc.map List.length).sum = (w', x)) :
    w'.conn.item = w.conn.item ∧
      ((∃ e, x = .inl e ∧ e ≠ .success ∧
          (w'.eng = w.eng ∧ e = ret ∨ ret = .success ∧ w'.eng = w.eng.next.2 ∧ e = w.eng.next.1.result) ∧
          (e ≠ .ewouldblock → w'.conn.ewouldblock = w.conn.ewouldblock) ∧
          (e = .ewouldblock → w'.conn.ewouldblock = true ∧ responses w'.log = responses w.log)) ∨
        ret = .success ∧ x = .inr w.eng.items.length ∧
          w'.eng = { w.eng.next.2 with items := w.eng.items ++
            [.fresh protocolBinaryDatatypeJson ctx.result.newdoc.flatten ctx.inCas] } ∧
          w'.conn.ewouldblock = w.conn.ewouldblock ∧ responses w'.log = responses w.log) := by
  by_cases hret : ret = .success
  · subst hret
    by_cases hc : (env.engine.allocate w.eng req.key (ctx.result.newdoc.map List.length).sum
        protocolBinaryDatatypeJson).2.1 = .success
    · rw [subdocAllocate_allocated env req he ctx hc] at h
      cases h
      exact ⟨rfl, .inr ⟨rfl, rfl, rfl, rfl, by simp⟩⟩
    · unfold subdocAllocate at h
      simp only [if_true, engineAllocate] at h
      rcases ha : env.engine.allocate w.eng req.key (ctx.result.newdoc.map List.length).sum
        protocolBinaryDatatypeJson with ⟨s, code, o⟩
      rw [ha] at h hc
      dsimp only at h hc
      have hca : casAllocate w.eng (ctx.result.newdoc.map List.length).sum
          protocolBinaryDatatypeJson = (s, code, o) := by rw [← ha]; simp [he, casEngine]
      obtain ⟨rfl, rfl⟩ : s = w.eng.next.2 ∧ code = w.eng.next.1.result := by
        rcases casAllocate_cases w.eng (ctx.result.newdoc.map List.length).sum
          protocolBinaryDatatypeJson with ⟨-, h₂⟩ | ⟨-, h₂⟩ <;> rw [h₂] at hca <;> cases hca
        · exact ⟨rfl, rfl⟩
        · exact absurd rfl hc
      simp only [hc, if_false] at h
      split_ifs at h with h₁ h₂ <;> cases h
      · exact ⟨rfl, .inl ⟨_, rfl, hc, .inr ⟨rfl, rfl, rfl⟩, fun h => absurd h₁ h, fun _ =>
          ⟨rfl, by simp⟩⟩⟩
      · exact ⟨rfl, .inl ⟨_, rfl, hc, .inr ⟨rfl, rfl, rfl⟩, fun _ => rfl, fun h => absurd h h₁⟩⟩
      · exact ⟨rfl, .inl ⟨_, rfl, hc, .inr ⟨rfl, rfl, rfl⟩, fun _ => rfl, fun h => absurd h h₁⟩⟩
  · unfold subdocAllocate at h
    simp only [hret, if_false] at h
    split_ifs at h with h₁ h₂ <;> cases h
    · exact ⟨rfl, .inl ⟨_, rfl, hret, .inl ⟨rfl, rfl⟩, fun h => absurd h₁ h, fun _ => ⟨rfl, rfl⟩⟩⟩
    · exact ⟨rfl, .inl ⟨_, rfl, hret, .inl ⟨rfl, rfl⟩, fun _ => rfl, fun h => absurd h h₁⟩⟩
    · exact ⟨rfl, .inl ⟨_, rfl, hret, .inl ⟨rfl, rfl⟩, fun _ => rfl, fun h => absurd h h₁⟩⟩

end Steps

/-! ## Every conflict is charged to another writer's write -/

/-- A world inside an entry into the executor: the invariants hold and `EWOULDBLOCK` is clear. -/
structure Live (env : Env CasStore) (traits : CmdTraits) (req : SubdocRequest)
    (w : World CasStore) : Prop where
  cas : CasInv env traits req w
  ledger : Ledger w.eng
  held : Held w.eng w.conn.item
  running : w.conn.ewouldblock = false

section Conflicts
variable (env : Env CasStore) (traits : CmdTraits) (req : SubdocRequest)
  (he : env.engine = casEngine)
include he

theorem timeline_subdocFetch {w : World CasStore} (hl : Ledger w.eng) (ha : Held w.eng w.conn.item)
    (ret : EngineErrorCode) :
    Later w.eng (subdocFetch env req w ret).1.eng ∧ Ledger (subdocFetch env req w ret).1.eng ∧
      Held (subdocFetch env req w ret).1.eng (subdocFetch env req w ret).1.conn.item := by
  unfold subdocFetch
  cases hitem : w.conn.item with
  | some it =>
    simp only [hitem]
    exact ⟨.refl _, hl, by simpa [hitem] using ha⟩
  | none =>
    by_cases hret : ret = .success
    · obtain ⟨hL, hl'⟩ := ledger_casGet hl
      have hg := @held_casGet w.eng
      simp only [hret, if_true, engineGet, he, casEngine]
      rcases hc : casGet w.eng with ⟨s, code, ref⟩
      rw [hc] at hL hl' hg
      dsimp only
      split_ifs with h₁ h₂
      · exact ⟨hL, hl', by simp [hitem]⟩
      · exact ⟨hL, hl', hg h₁⟩
      all_goals exact ⟨hL, hl', by simp [hitem]⟩
    · simp only [hret, if_false]
      split_ifs <;> exact ⟨.refl _, hl, by simp [hitem]⟩

theorem Live.fetch {w : World CasStore} (h : Live env traits req w) (ret : EngineErrorCode) :
    Later w.eng (subdocFetch env req w ret).1.eng ∧ Ledger (subdocFetch env req w ret).1.eng ∧
      Held (subdocFetch env req w ret).1.eng (subdocFetch env req w ret).1.conn.item ∧
      ((subdocFetch env req w ret).2 = true → Live env traits req (subdocFetch env req w ret).1) :=
  have ⟨hL, hl, ha⟩ := timeline_subdocFetch env req he h.ledger h.held ret
  ⟨hL, hl, ha, fun hc => ⟨casInv_subdocFetch env traits req he h.cas ret, hl, ha,
    (subdocFetch_continue env req hc).1.trans h.running⟩⟩

theorem Live.operate {w : World CasStore} (h : Live env traits req w) :
    Live env traits req (subdocOperate env traits req w).1 := by
  obtain ⟨heng, hitem, hb⟩ := subdocOperate_frame env traits req w
  exact ⟨(casInv_subdocOperate env traits req he h.cas).1, heng ▸ h.ledger,
    by rw [heng, hitem]; exact h.held, hb.trans h.running⟩

theorem Live.release {w : World CasStore} (hi : CasInv env traits req w) (hl : Ledger w.eng)
    (hb : w.conn.ewouldblock = false) : Live env traits req (releaseItemAndContext env w) := by
  obtain ⟨heng, hitem, -, hb', -⟩ := releaseItemAndContext_frame env he w
  exact ⟨casInv_releaseItemAndContext env traits req he hi, heng ▸ hl, by simp [hitem],
    hb'.trans hb⟩

theorem timeline_subdocStore {w w' : World CasStore} {r : EngineErrorCode}
    (hi : CasInv env traits req w) (hl : Ledger w.eng) (ha : Held w.eng w.conn.item)
    {ctx : SubdocCmdContext} {d : Bytes} {o : ItemRef} (hctx : w.conn.commandContext = some ctx)
    (hd : ctx.inDoc = some d) (ho : ctx.outDoc = some o) (h : subdocStore env req w o = (w', r)) :
    Later w.eng w'.eng ∧ Ledger w'.eng ∧ (r ≠ .success → r ≠ .keyEexists → Held w'.eng w'.conn.item) ∧
      (r = .success ∨ r = .keyEexists → w'.conn.ewouldblock = w.conn.ewouldblock) ∧
      (r = .keyEexists →
        w.eng.trace.count (.store .keyEexists) < w'.eng.trace.count (.store .keyEexists)) := by
  obtain ⟨heng, hr, hitem, hb, -⟩ := subdocStore_spec env req he w o
  rw [h] at heng hr hitem hb
  dsimp only at heng hr hitem hb
  subst hr
  rw [heng, hitem]
  obtain ⟨it, i, v, hit, hread, hcas, -⟩ := hi.doc ctx d hctx hd
  have hfresh := (hi.out ctx o hctx ho).2
  rw [hcas] at hfresh
  exact ⟨(casStore_frame _ _).1, ledger_casStore hl fun hk =>
    explain_conflict hl (hit ▸ ha) hread.item hread.version hfresh hk, held_casStore ha,
    fun hr => hb (by rcases hr with hr | hr <;> rw [hr] <;> decide), count_lt_casStore⟩

/-- What `subdoc_update` does to the timeline. It keeps the timeline accounted. Any outcome
other than success or a conflict leaves `c->item` held. Success or a conflict leaves
`EWOULDBLOCK` as it was. With no completion status passed on, a conflict is a store's
`KEY_EEXISTS`, marked on the timeline. -/
theorem timeline_subdocUpdate {w w' : World CasStore} {ret r : EngineErrorCode}
    (hi : CasInv env traits req w) (hl : Ledger w.eng) (ha : Held w.eng w.conn.item)
    {ctx : SubdocCmdContext} {d : Bytes} (hctx : w.conn.commandContext = some ctx)
    (hd : ctx.inDoc = some d) (h : subdocUpdate env traits req w ret = (w', r)) :
    Later w.eng w'.eng ∧ Ledger w'.eng ∧ (r ≠ .success → r ≠ .keyEexists → Held w'.eng w'.conn.item) ∧
      (r = .success ∨ r = .keyEexists → w'.conn.ewouldblock = w.conn.ewouldblock) ∧
      (ret = .success → r = .keyEexists →
        w.eng.trace.count (.store .keyEexists) < w'.eng.trace.count (.store .keyEexists)) := by
  rcases subdocUpdate_cases env traits req hctx h with ⟨-, rfl, rfl⟩ |
    ⟨-, ⟨o, ho, hs⟩ | ⟨-, hal⟩ | ⟨-, w₁, o, hal, hs⟩⟩
  · exact ⟨.refl _, hl, fun h => absurd rfl h, fun _ => rfl, fun _ h => absurd h (by decide)⟩
  · obtain ⟨h₁, h₂, h₃, h₄, h₅⟩ := timeline_subdocStore env traits req he hi hl ha hctx hd ho hs
    exact ⟨h₁, h₂, h₃, h₄, fun _ => h₅⟩
  · obtain ⟨hitem, ⟨e, he', hne, heng, hb, -⟩ | ⟨-, hx, -⟩⟩ := subdocAllocate_cases env req he hal
    · cases he'
      have hL : Later w.eng w'.eng ∧ Ledger w'.eng ∧ Held w'.eng w'.conn.item := by
        rw [hitem]
        rcases heng with ⟨heq, -⟩ | ⟨-, heq, -⟩ <;> rw [heq]
        · exact ⟨.refl _, hl, ha⟩
        · exact ⟨(next_writes _).choose_spec.2.2.2, hl.next, ha.next⟩
      refine ⟨hL.1, hL.2.1, fun _ _ => hL.2.2, fun hr => hb ?_, fun hret hk => ?_⟩
      · rcases hr with rfl | rfl <;> decide
      · rcases heng with ⟨-, rfl⟩ | ⟨-, -, hres⟩
        · exact absurd hret hne
        · exact absurd (hres ▸ hk) hl.next_result
    · cases hx
  · obtain ⟨hitem, ⟨e, hx, -⟩ | ⟨-, hx, heng, hb, -⟩⟩ := subdocAllocate_cases env req he hal
    · cases hx
    cases hx
    have ha₁ := casInv_subdocAllocate env traits req he hi hctx hd ret
    rw [hal] at ha₁
    obtain ⟨ws, hh, ht, -, hL⟩ := next_writes w.eng
    have hL₁ : Later w.eng w₁.eng := by
      rw [heng]; exact hL.trans ⟨List.prefix_refl _, List.suffix_refl _⟩
    have hl₁ : Ledger w₁.eng := by rw [heng]; exact ⟨hl.next.script, hl.next.accounted⟩
    have hh₁ : Held w₁.eng w₁.conn.item := by
      rw [heng, hitem]; exact ha.writes hh ht (List.prefix_append _ _)
    obtain ⟨h₁, h₂, h₃, h₄, h₅⟩ :=
      timeline_subdocStore env traits req he ha₁.1 hl₁ hh₁ (ha₁.2.2 _ rfl) hd rfl hs
    exact ⟨hL₁.trans h₁, h₂, h₃, fun hr => (h₄ hr).trans hb,
      fun _ hk => lt_of_le_of_lt (hL₁.trace.count_le _) (h₅ hk)⟩

/-- One entry into the executor, from a world where `EWOULDBLOCK` is clear, keeps the timeline
accounted, and leaves `c->item` held when it suspends. -/
theorem timeline_executorLoop (autoRetry : Bool) :
    ∀ (fuel attempts : Nat) (ret : EngineErrorCode) {w : World CasStore}, Live env traits req w →
      Ledger (executorLoop env traits req autoRetry fuel attempts ret w).eng ∧
        ((executorLoop env traits req autoRetry fuel attempts ret w).conn.ewouldblock = true →
          Held (executorLoop env traits req autoRetry fuel attempts ret w).eng
            (executorLoop env traits req autoRetry fuel attempts ret w).conn.item) := by
  intro fuel
  induction fuel with
  | zero => intro _ _ w h; exact ⟨h.ledger, fun _ => h.held⟩
  | succ fuel ih =>
    intro attempts ret w h
    obtain ⟨-, hl₁, ha₁, h₁⟩ := h.fetch env traits req he ret
    rw [executorLoop]
    rcases hfetch : subdocFetch env req w ret with ⟨w₁, _ | _⟩ <;> rw [hfetch] at hl₁ ha₁ h₁
    · exact ⟨hl₁, fun _ => ha₁⟩
    replace h₁ : Live env traits req w₁ := h₁ rfl
    have h₂ := h₁.operate env traits req he
    have ho := casInv_subdocOperate env traits req he h₁.cas
    dsimp only
    rcases hop : subdocOperate env traits req w₁ with ⟨w₂, _ | _⟩ <;> rw [hop] at ho h₂ <;>
      dsimp only at ho h₂ ⊢
    · exact ⟨h₂.ledger, fun _ => h₂.held⟩
    obtain ⟨ctx, d, hctx, hd⟩ := ho.2 rfl
    have hu := casInv_subdocUpdate env traits req he h₂.cas hctx hd ret
    rcases hup : subdocUpdate env traits req w₂ ret with ⟨w₃, r⟩
    rw [hup] at hu
    obtain ⟨-, hl₃, ha₃, hb₃, -⟩ :=
      timeline_subdocUpdate env traits req he h₂.cas h₂.ledger h₂.held hctx hd hup
    have hr₃ : r = .success ∨ r = .keyEexists → w₃.conn.ewouldblock = false :=
      fun hr => (hb₃ hr).trans h₂.running
    dsimp only
    split_ifs with hk hauto hlt hne
    · exact ih _ _ (Live.release env traits req he hu.1 hl₃ (hr₃ (.inr hk)))
    · have hrel := Live.release env traits req he hu.1 hl₃ (hr₃ (.inr hk))
      exact ⟨hrel.ledger, fun h => by simp [hrel.running] at h⟩
    · exact ⟨hl₃, fun h => by simp [hr₃ (.inr hk)] at h⟩
    · exact ⟨hl₃, fun _ => ha₃ hne hk⟩
    · obtain ⟨heng₅, hb₅⟩ := subdocResponse_frame env traits w₃
      exact ⟨heng₅ ▸ hl₃, fun h => by simp [hb₅, hr₃ (.inl (not_not.mp hne))] at h⟩

/-- What every world of a command's run keeps: the timeline is accounted, and a suspended
command still holds its snapshot. -/
structure RetryInv (w : World CasStore) : Prop where
  ledger : Ledger w.eng
  held : w.conn.ewouldblock = true → Held w.eng w.conn.item

theorem retryInv_runFrom {w₀ w : World CasStore} (h₀ : Fresh w₀) (hb : w₀.conn.ewouldblock = false)
    (hl : Ledger w₀.eng) (h : RunFrom env traits req w₀ w) : RetryInv w := by
  induction h with
  | start =>
    obtain ⟨h₁, h₂⟩ := timeline_executorLoop env traits req he _ _ _ _
      (w := w₀.setAiostat .success)
      ⟨⟨by simp [h₀.item], by simp [h₀.context], by simp [h₀.context], by simp [h₀.log]⟩, hl,
        by simp [h₀.item], hb⟩
    exact ⟨h₁, h₂⟩
  | @resume w s hrun hblock ih =>
    obtain ⟨h₁, h₂⟩ := timeline_executorLoop env traits req he _ _ _ _
      (w := (resume s w).setAiostat .success)
      ⟨(casInv_runFrom env traits req he h₀ hrun).setConn rfl rfl, ih.ledger, ih.held hblock, rfl⟩
    exact ⟨h₁, h₂⟩

end Conflicts

/-! ## Completion -/

section Resumed
variable {σ : Type} (env : Env σ) (traits : CmdTraits) (req : SubdocRequest)

/-- The command started in `w₀`, resumed with `ENGINE_SUCCESS` after each `EWOULDBLOCK`, up to
`n` times. -/
def resumedRun (w₀ : World σ) : Nat → World σ
  | 0 => subdocExecutor env traits req w₀
  | n + 1 =>
    if (resumedRun w₀ n).conn.ewouldblock then
      subdocExecutor env traits req (resume .success (resumedRun w₀ n))
    else resumedRun w₀ n

theorem runFrom_resumedRun (w₀ : World σ) (n : Nat) :
    RunFrom env traits req w₀ (resumedRun env traits req w₀ n) := by
  induction n with
  | zero => exact .start
  | succ n ih =>
    rw [resumedRun]
    split
    · exact .resume .success ih ‹_›
    · exact ih

end Resumed

section Completion
variable (env : Env CasStore) (traits : CmdTraits) (req : SubdocRequest)

/-- The JSON operation succeeds on version `v`'s document, read with the request's CAS. -/
def OpOk (v : Version) : Prop :=
  ∃ d, documentForSearching env v.info req.cas = .ok (d, v.cas) ∧
    (subdocOpExec env traits req d).1 = .success

/-- One entry into the executor from `w` ended in `w'`: suspended, with the script shorter, the
script still fair and nothing written; or not suspended, having written one success response
unless the other writers wrote `MAXIMUM_ATTEMPTS` times. -/
def Progress (w w' : World CasStore) : Prop :=
  w'.conn.ewouldblock = true ∧ Fair (OpOk env traits req) w'.eng w'.conn.item ∧
      responses w'.log = responses w.log ∧ w'.eng.script.length < w.eng.script.length ∨
    w'.conn.ewouldblock = false ∧ (w'.eng.trace.count .foreignWrite < maximumAttempts →
      ∃ cas value, responses w'.log = responses w.log ++ [.subdoc cas value])

theorem Progress.of_before {w w₁ w' : World CasStore} (h : Progress env traits req w₁ w')
    (hr : responses w₁.log = responses w.log) (hs : w₁.eng.script.length ≤ w.eng.script.length) :
    Progress env traits req w w' := by
  rcases h with ⟨h₁, h₂, h₃, h₄⟩ | ⟨h₁, h₂⟩
  · exact .inl ⟨h₁, h₂, h₃.trans hr, lt_of_lt_of_le h₄ hs⟩
  · exact .inr ⟨h₁, fun hlt => hr ▸ h₂ hlt⟩

theorem Progress.blocked {w w' : World CasStore} (h : Progress env traits req w w')
    (hb : w'.conn.ewouldblock = true) :
    Fair (OpOk env traits req) w'.eng w'.conn.item ∧ responses w'.log = responses w.log ∧
      w'.eng.script.length < w.eng.script.length :=
  (h.resolve_right fun h' => Bool.false_ne_true (h'.1.symm.trans hb)).2

variable (he : env.engine = casEngine)
include he

theorem fair_subdocFetch {w w' : World CasStore} {b : Bool}
    (hf : Fair (OpOk env traits req) w.eng w.conn.item)
    (hiff : w.conn.item.isSome = w.conn.commandContext.isSome)
    (h : subdocFetch env req w .success = (w', b)) :
    Fair (OpOk env traits req) w'.eng w'.conn.item ∧ responses w'.log = responses w.log ∧
      (b = true → w'.conn.ewouldblock = w.conn.ewouldblock ∧ w'.conn.item.isSome ∧
        w'.conn.commandContext.isSome) ∧
      (b = false → w'.conn.ewouldblock = true ∧ w'.eng.script.length < w.eng.script.length) := by
  unfold subdocFetch at h
  cases hitem : w.conn.item with
  | some it =>
    simp only [hitem] at h
    cases h
    exact ⟨hf, rfl, fun _ => ⟨rfl, by simp [hitem], by simpa [hitem] using hiff.symm⟩, by simp⟩
  | none =>
    have hctx : w.conn.commandContext = none := by simpa [hitem] using hiff.symm
    simp only [hitem, if_true, engineGet, he, casEngine] at h
    have hg := fair_casGet hf
    rcases hc : casGet w.eng with ⟨s, code, ref⟩
    rw [hc] at h hg
    dsimp only at h hg
    rcases hg with ⟨rfl, hf'⟩ | ⟨rfl, hf', hlen⟩
    · simp [hctx] at h
      obtain ⟨rfl, rfl⟩ := h
      exact ⟨hf', by simp, fun _ => ⟨rfl, rfl, rfl⟩, by simp⟩
    · simp at h
      obtain ⟨rfl, rfl⟩ := h
      exact ⟨hf', by simp, by simp, fun _ => ⟨rfl, hlen⟩⟩

theorem fair_subdocOperate {w : World CasStore} (hf : Fair (OpOk env traits req) w.eng w.conn.item)
    (hc : w.conn.commandContext.isSome) (hitem : w.conn.item.isSome) :
    (subdocOperate env traits req w).2 = true ∧
      responses (subdocOperate env traits req w).1.log = responses w.log := by
  obtain ⟨ctx, hctx⟩ := Option.isSome_iff_exists.mp hc
  obtain ⟨it, hit⟩ := Option.isSome_iff_exists.mp hitem
  unfold subdocOperate
  simp only [hctx]
  cases hdoc : ctx.inDoc with
  | some d => simp
  | none =>
    obtain ⟨i, v, hsnap, hv, d, hdoc', hop⟩ := hf.held it hit
    simp [hit, getDocumentForSearching_snapshot env he hsnap hv, hdoc', hop]

theorem fair_subdocStore {w w' : World CasStore} {r : EngineErrorCode}
    (hi : CasInv env traits req w) (hf : Fair (OpOk env traits req) w.eng w.conn.item)
    {ctx : SubdocCmdContext} {o : ItemRef} (hctx : w.conn.commandContext = some ctx)
    (ho : ctx.outDoc = some o) (h : subdocStore env req w o = (w', r)) :
    responses w'.log = responses w.log ∧
      (r = .success ∨ r = .keyEexists ∧ Fair (OpOk env traits req) w'.eng w'.conn.item ∨
        r = .ewouldblock ∧ w'.conn.ewouldblock = true ∧
          Fair (OpOk env traits req) w'.eng w'.conn.item ∧
          w'.eng.script.length < w.eng.script.length) := by
  obtain ⟨heng, hr, hitem, -, hresp, hblock⟩ := subdocStore_spec env req he w o
  rw [h] at heng hr hitem hresp hblock
  dsimp only at heng hr hitem hresp hblock
  subst hr
  rw [heng, hitem]
  have hcases := fair_casStore hf (hi.out ctx o hctx ho).2
  exact ⟨hresp (hcases.imp id (.imp (·.1) (·.1))),
    hcases.imp id (.imp id fun h => ⟨h.1, hblock h.1, h.2⟩)⟩

theorem fair_subdocUpdate {w w' : World CasStore} {r : EngineErrorCode}
    (hi : CasInv env traits req w) (hf : Fair (OpOk env traits req) w.eng w.conn.item)
    {ctx : SubdocCmdContext} {d : Bytes} (hctx : w.conn.commandContext = some ctx)
    (hd : ctx.inDoc = some d) (h : subdocUpdate env traits req w .success = (w', r)) :
    responses w'.log = responses w.log ∧
      (r = .success ∨ r = .keyEexists ∧ Fair (OpOk env traits req) w'.eng w'.conn.item ∨
        r = .ewouldblock ∧ w'.conn.ewouldblock = true ∧
          Fair (OpOk env traits req) w'.eng w'.conn.item ∧
          w'.eng.script.length < w.eng.script.length) := by
  rcases subdocUpdate_cases env traits req hctx h with ⟨-, rfl, rfl⟩ |
    ⟨-, ⟨o, ho, hs⟩ | ⟨-, hal⟩ | ⟨-, w₁, o, hal, hs⟩⟩
  · exact ⟨rfl, .inl rfl⟩
  · exact fair_subdocStore env traits req he hi hf hctx ho hs
  · obtain ⟨hitem, ⟨e, he', hne, heng, -, hblock⟩ | ⟨-, hx, -⟩⟩ := subdocAllocate_cases env req he hal
    · cases he'
      rcases heng with ⟨-, rfl⟩ | ⟨-, heq, hres⟩
      · exact absurd rfl hne
      · obtain ⟨hf', hr'⟩ := hf.next
        obtain ⟨hw, hlen⟩ := hr'.resolve_left (hres ▸ hne)
        obtain ⟨hb, hresp⟩ := hblock (hres.trans hw)
        exact ⟨hresp, .inr (.inr ⟨hres.trans hw, hb, by rw [heq, hitem]; exact hf',
          by rw [heq]; exact hlen⟩)⟩
    · cases hx
  · obtain ⟨hitem, ⟨e, hx, -⟩ | ⟨-, hx, heng, -, hresp⟩⟩ := subdocAllocate_cases env req he hal
    · cases hx
    cases hx
    have ha₁ := casInv_subdocAllocate env traits req he hi hctx hd .success
    rw [hal] at ha₁
    obtain ⟨-, -, -, hitems, hL⟩ := next_writes w.eng
    have hf₁ : Fair (OpOk env traits req) w₁.eng w₁.conn.item := by
      rw [heng, hitem]
      exact hf.next.1.mono rfl rfl (by rw [hitems]; exact List.prefix_append _ _)
    have hlen : w₁.eng.script.length ≤ w.eng.script.length := by
      rw [heng]; exact hL.script.length_le
    obtain ⟨hresp₂, hr₂⟩ := fair_subdocStore env traits req he ha₁.1 hf₁ (ha₁.2.2 _ rfl) rfl hs
    exact ⟨hresp₂.trans hresp,
      hr₂.imp id (.imp id fun h => ⟨h.1, h.2.1, h.2.2.1, lt_of_lt_of_le h.2.2.2 hlen⟩)⟩

/-- One entry into the executor, auto-retrying from a fair script, makes progress. Each retry
follows a conflict, so with `attempts` counting the conflicts so far, running out of attempts
means the other writers wrote `MAXIMUM_ATTEMPTS` times. -/
theorem progress_executorLoop (hadd : ∀ n, env.addBinHeader n = true) :
    ∀ (fuel attempts : Nat) {w : World CasStore}, Live env traits req w →
      w.conn.item.isSome = w.conn.commandContext.isSome →
      Fair (OpOk env traits req) w.eng w.conn.item → fuel + attempts = maximumAttempts →
      attempts ≤ w.eng.trace.count (.store .keyEexists) →
      Progress env traits req w (executorLoop env traits req true fuel attempts .success w) := by
  intro fuel
  induction fuel with
  | zero =>
    intro attempts w h _ _ hfa hca
    have := h.ledger.accounted.count_le
    exact .inr ⟨h.running, fun hlt => by simp only [executorLoop] at hlt; omega⟩
  | succ fuel ih =>
    intro attempts w h hiff hf hfa hca
    obtain ⟨hL₁, -, -, h₁⟩ := h.fetch env traits req he .success
    rw [executorLoop]
    rcases hfetch : subdocFetch env req w .success with ⟨w₁, b⟩
    obtain ⟨hf₁, hresp₁, hcont, hsusp⟩ := fair_subdocFetch env traits req he hf hiff hfetch
    rw [hfetch] at hL₁ h₁
    cases b with
    | false => exact .inl ⟨(hsusp rfl).1, hf₁, hresp₁, (hsusp rfl).2⟩
    | true =>
    replace h₁ : Live env traits req w₁ := h₁ rfl
    obtain ⟨-, hitem₁, hctx₁⟩ := hcont rfl
    obtain ⟨hop, hresp₂⟩ := fair_subdocOperate env traits req he hf₁ hctx₁ hitem₁
    obtain ⟨heng₂, hitem₂, -⟩ := subdocOperate_frame env traits req w₁
    have h₂ := h₁.operate env traits req he
    have ho := casInv_subdocOperate env traits req he h₁.cas
    dsimp only
    rcases hop' : subdocOperate env traits req w₁ with ⟨w₂, b₂⟩
    rw [hop'] at hop hresp₂ heng₂ hitem₂ h₂ ho
    dsimp only at hop hresp₂ heng₂ hitem₂ h₂ ho
    subst hop
    dsimp only
    obtain ⟨ctx, d, hctx, hd⟩ := ho.2 rfl
    have hu := casInv_subdocUpdate env traits req he h₂.cas hctx hd .success
    rcases hup : subdocUpdate env traits req w₂ .success with ⟨w₃, r⟩
    rw [hup] at hu
    obtain ⟨hL₃, hl₃, -, hb₃, hcount⟩ :=
      timeline_subdocUpdate env traits req he h₂.cas h₂.ledger h₂.held hctx hd hup
    obtain ⟨hresp₃, hr⟩ := fair_subdocUpdate env traits req he h₂.cas
      (by rw [heng₂, hitem₂]; exact hf₁) hctx hd hup
    have hr₃ : r = .success ∨ r = .keyEexists → w₃.conn.ewouldblock = false :=
      fun hr => (hb₃ hr).trans h₂.running
    have hresp : responses w₃.log = responses w.log := by rw [hresp₃, hresp₂, hresp₁]
    have hlen₂ : w₂.eng.script.length ≤ w.eng.script.length := heng₂ ▸ hL₁.script.length_le
    dsimp only
    by_cases hk : r = .keyEexists
    · have hca₃ : attempts < w₃.eng.trace.count (.store .keyEexists) :=
        lt_of_le_of_lt (hca.trans (heng₂ ▸ hL₁.trace.count_le _)) (hcount rfl hk)
      have hrel := Live.release env traits req he hu.1 hl₃ (hr₃ (.inr hk))
      obtain ⟨heng₄, hitem₄, hctx₄, -, hresp₄⟩ := releaseItemAndContext_frame env he w₃
      rw [if_pos hk, if_pos rfl]
      by_cases hlt : attempts + 1 < maximumAttempts
      · rw [if_pos hlt]
        have hf₃ : Fair (OpOk env traits req) w₃.eng w₃.conn.item := by
          rcases hr with h | ⟨-, h⟩ | ⟨h, -⟩
          · rw [h] at hk; cases hk
          · exact h
          · rw [h] at hk; cases hk
        refine (ih (attempts + 1) hrel (by simp [hitem₄, hctx₄])
          (by rw [heng₄, hitem₄]; exact hf₃.clear) (by omega) (by rw [heng₄]; omega)).of_before
          env traits req (hresp₄.trans hresp) (heng₄ ▸ (hL₃.script.length_le.trans hlen₂))
      · rw [if_neg hlt]
        have := hl₃.accounted.count_le
        refine .inr ⟨hrel.running, fun hlt' => ?_⟩
        simp only [World.writeBinPacket, World.emit, heng₄] at hlt'
        omega
    · rw [if_neg hk]
      by_cases hne : r ≠ .success
      · rw [if_pos hne]
        rcases hr with h | ⟨h, -⟩ | ⟨-, hblock, hf₃, hlen⟩
        · exact absurd h hne
        · exact absurd h hk
        · exact .inl ⟨hblock, hf₃, hresp, lt_of_lt_of_le hlen hlen₂⟩
      · rw [if_neg hne]
        obtain ⟨ctx₃, hctx₃, -⟩ := hu.2 (not_not.mp hne)
        obtain ⟨value, hv⟩ := subdocResponse_responds env traits hadd hctx₃
        exact .inr ⟨(subdocResponse_frame env traits w₃).2.trans (hr₃ (.inl (not_not.mp hne))),
          fun _ => ⟨_, value, by rw [hv, hresp]⟩⟩

/-- Resumed after each `EWOULDBLOCK`, an auto-retrying command from a fair script makes
progress at every entry, and each suspension consumes a decision of the script. -/
theorem progress_resumedRun (hcas : req.cas = 0) (hadd : ∀ n, env.addBinHeader n = true)
    {w₀ : World CasStore} (h₀ : Fresh w₀) (hb : w₀.conn.ewouldblock = false)
    (ht : w₀.eng.trace = []) (hf : Fair (OpOk env traits req) w₀.eng none) (n : Nat) :
    Progress env traits req w₀ (resumedRun env traits req w₀ n) ∧
      ((resumedRun env traits req w₀ n).conn.ewouldblock = true →
        (resumedRun env traits req w₀ n).eng.script.length + n < w₀.eng.script.length) := by
  have hl₀ : Ledger w₀.eng := ⟨hf.result_ne_keyEexists, ht ▸ accounted_nil⟩
  have hauto : (req.cas == 0) = true := by simp [hcas]
  induction n with
  | zero =>
    have hp : Progress env traits req w₀ (resumedRun env traits req w₀ 0) := by
      rw [resumedRun, subdocExecutor, hauto, h₀.aiostat]
      exact progress_executorLoop env traits req he hadd _ _ (w := w₀.setAiostat .success)
        ⟨⟨by simp [h₀.item], by simp [h₀.context], by simp [h₀.context], by simp [h₀.log]⟩, hl₀,
          by simp [h₀.item], hb⟩
        (by simp [h₀.item, h₀.context]) (by simpa [h₀.item] using hf) rfl (Nat.zero_le _)
    exact ⟨hp, fun hblock => (hp.blocked env traits req hblock).2.2⟩
  | succ n ih =>
    have hrun := runFrom_resumedRun env traits req w₀ n
    rw [resumedRun]
    split
    · rename_i hblock
      obtain ⟨hf', hresp, -⟩ := ih.1.blocked env traits req hblock
      have hlen := ih.2 hblock
      have hinv := retryInv_runFrom env traits req he h₀ hb hl₀ hrun
      have hsub : subdocExecutor env traits req (resume .success (resumedRun env traits req w₀ n)) =
          executorLoop env traits req true maximumAttempts 0 .success
            ((resume .success (resumedRun env traits req w₀ n)).setAiostat .success) := by
        rw [subdocExecutor, hauto]; rfl
      have hp := progress_executorLoop env traits req he hadd maximumAttempts 0
        (w := (resume .success (resumedRun env traits req w₀ n)).setAiostat .success)
        ⟨(casInv_runFrom env traits req he h₀ hrun).setConn rfl rfl, hinv.ledger,
          hinv.held hblock, rfl⟩
        (itemsInv_reachable env traits req (hrun.reachable env traits req h₀)).item_iff hf' rfl
        (Nat.zero_le _)
      rw [hsub]
      refine ⟨hp.of_before env traits req hresp
        (show (resumedRun env traits req w₀ n).eng.script.length ≤ _ by omega), fun hblock' => ?_⟩
      have : _ < (resumedRun env traits req w₀ n).eng.script.length :=
        (hp.blocked env traits req hblock').2.2
      omega
    · rename_i hblock
      exact ⟨ih.1, fun h => absurd h hblock⟩

end Completion


/-! ## Auto-retry -/

/-- Over every run of a single-path command against the CAS-enforcing engine whose script never
refuses a call with `KEY_EEXISTS`, resumed with any status: every `KEY_EEXISTS` a store receives
comes after a `get`, with a write of another writer in the window since that `get` and no other
`KEY_EEXISTS` there, and there are no more of them than such writes. An auto-retrying command,
resumed with `ENGINE_SUCCESS` after each `EWOULDBLOCK`, whose script decides only `SUCCESS` or
`EWOULDBLOCK`, whose operation succeeds on every version it may read, and whose response header
is allocated, stops suspending; it has then written one response, a success, when the other
writers wrote fewer than `MAXIMUM_ATTEMPTS` times while it ran. -/
theorem subdoc_conflicts_charged_retry_completes (env : Env CasStore) (he : env.engine = casEngine)
    (traits : CmdTraits) (req : SubdocRequest) {w₀ : World CasStore} (h₀ : Fresh w₀)
    (hb : w₀.conn.ewouldblock = false) (ht : w₀.eng.trace = [])
    (hs : ∀ d ∈ w₀.eng.script, d.result ≠ .keyEexists) :
    (∀ w, RunFrom env traits req w₀ w →
      (∀ A C, w.eng.trace = A ++ .store .keyEexists :: C →
        .get ∈ A ∧ .foreignWrite ∈ sinceGet A ∧ .store .keyEexists ∉ sinceGet A) ∧
      w.eng.trace.count (.store .keyEexists) ≤ w.eng.trace.count .foreignWrite) ∧
    (req.cas = 0 → (∀ n, env.addBinHeader n = true) → Fair (OpOk env traits req) w₀.eng none →
      ∃ n, (resumedRun env traits req w₀ n).conn.ewouldblock = false ∧
        ((resumedRun env traits req w₀ n).eng.trace.count .foreignWrite < maximumAttempts →
          ∃ cas value, responses (resumedRun env traits req w₀ n).log = [.subdoc cas value])) := by
  have hl₀ : Ledger w₀.eng := ⟨hs, ht ▸ accounted_nil⟩
  refine ⟨fun w h => ?_, fun hcas hadd hf => ⟨w₀.eng.script.length, ?_⟩⟩
  · have ha := (retryInv_runFrom env traits req he h₀ hb hl₀ h).ledger.accounted
    exact ⟨ha.explained, ha.count_le⟩
  · obtain ⟨hp, hlen⟩ :=
      progress_resumedRun env traits req he hcas hadd h₀ hb ht hf w₀.eng.script.length
    rcases hp with ⟨hblock, -⟩ | ⟨hblock, hdone⟩
    · exact absurd (hlen hblock) (by omega)
    · exact ⟨hblock, fun hlt => by simpa [h₀.log] using hdone hlt⟩

/-! ## Runs -/

section Runs

theorem opOk_scripted {v : Version} (hv : v.datatype = protocolBinaryDatatypeJson) :
    OpOk (scriptedEnv _ casEngine) mutatorTraits (scriptedRequest 0) v :=
  ⟨v.value, by simp [documentForSearching, Version.info, hv, scriptedRequest], rfl⟩

/-- `{}` with CAS 5. The first `get` suspends; before the `allocate` after it, another writer
stores `[]` with CAS 6, so the first `REPLACE` conflicts and the retry stores with CAS 8. -/
def retryStore : CasStore :=
  ⟨[⟨protocolBinaryDatatypeJson, [0x7b, 0x7d], 5⟩], [],
    [⟨[], .ewouldblock, 0⟩, ⟨[], .success, 0⟩,
      ⟨[⟨protocolBinaryDatatypeJson, [0x5b, 0x5d], 6⟩], .success, 0⟩, ⟨[], .success, 7⟩,
      ⟨[], .success, 0⟩, ⟨[], .success, 0⟩, ⟨[], .success, 8⟩], []⟩

theorem subdoc_conflicts_charged_retry_completes_retryStore :
    (∀ w, RunFrom (scriptedEnv _ casEngine) mutatorTraits (scriptedRequest 0)
        (freshWorld retryStore) w →
      (∀ A C, w.eng.trace = A ++ .store .keyEexists :: C →
        .get ∈ A ∧ .foreignWrite ∈ sinceGet A ∧ .store .keyEexists ∉ sinceGet A) ∧
      w.eng.trace.count (.store .keyEexists) ≤ w.eng.trace.count .foreignWrite) ∧
    ∃ n, (resumedRun (scriptedEnv _ casEngine) mutatorTraits (scriptedRequest 0)
        (freshWorld retryStore) n).conn.ewouldblock = false ∧
      ((resumedRun (scriptedEnv _ casEngine) mutatorTraits (scriptedRequest 0)
          (freshWorld retryStore) n).eng.trace.count .foreignWrite < maximumAttempts →
        ∃ cas value, responses (resumedRun (scriptedEnv _ casEngine) mutatorTraits
          (scriptedRequest 0) (freshWorld retryStore) n).log = [.subdoc cas value]) :=
  have h := subdoc_conflicts_charged_retry_completes (scriptedEnv _ casEngine) rfl mutatorTraits
    (scriptedRequest 0) (fresh_freshWorld retryStore) rfl rfl (by decide)
  have hjson : ∀ d ∈ retryStore.script, ∀ v ∈ d.writes,
      v.datatype = protocolBinaryDatatypeJson := by decide
  ⟨h.1, h.2 rfl (fun _ => rfl) ⟨by decide, ⟨_, rfl, opOk_scripted rfl⟩,
    fun d hd v hv => opOk_scripted (hjson d hd v hv), fun _ h => by cases h⟩⟩

/-- Every JSON operation fails: the path is not in the document. -/
def pathMissingEnv : Env CasStore :=
  { scriptedEnv _ casEngine with opExec := fun _ _ _ _ => (.pathEnoent, ⟨[], []⟩) }

def pathMissingRun : World CasStore :=
  subdocExecutor pathMissingEnv mutatorTraits (scriptedRequest 0)
    (freshWorld ⟨[⟨protocolBinaryDatatypeJson, [0x7b, 0x7d], 5⟩], [], [], []⟩)

/-- With no other writer and no engine error, an operation whose path is missing ends the
command with `SUBDOC_PATH_ENOENT`, not `SUCCESS`. -/
theorem subdoc_retry_path_enoent :
    pathMissingRun.conn.ewouldblock = false ∧ pathMissingRun.eng.trace.count .foreignWrite = 0 ∧
      pathMissingRun.eng.script = [] ∧ responses pathMissingRun.log = [.status .subdocPathEnoent] := by
  decide

end Runs

end Memcached.CasRetry
