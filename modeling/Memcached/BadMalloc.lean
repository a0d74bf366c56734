import Mathlib

set_option autoImplicit false

/-!
# badmalloc: failures injected into `malloc` and `realloc`

The `badmalloc` library interposes `malloc` and `realloc`. Once `init_alloc_hooks` has
installed a `BadMalloc`, each call asks `BadMalloc::shouldFail` whether to return `nullptr`:
the first 1000 asks succeed (the static `grace_period`), a call made while another one runs
(`recursion_depth > 1`) succeeds, and any other call fails on a Bernoulli draw. A failing call
prints a message and a backtrace before it returns; those may allocate, and the calls they
make run nested inside it.

The draws are a parameter `draw : Nat → Bool`, the result of the `n`-th draw, and each call
carries whether `real_malloc` or `real_realloc` returns NULL when the hook passes it on. The
statics `recursion_depth` and `grace_period` and the installed object are one state that the
calls update one after another: the calls of a single thread. Over every run of the program,
every sequence of draws and every result of the real allocator, `recursion_depth` is back to 0
after each call, and the hooks make a call fail only if the program made it itself (depth 1)
after at least 1000 calls with the hooks installed: the failure diagnostics never have a
failure injected.
-/

namespace Memcached.BadMalloc

/-- The two interposed functions; they share one body. -/
inductive Alloc
  | malloc
  | realloc
  deriving DecidableEq, Repr

/-- A call of `malloc` or `realloc` with its size, whether the real function returns NULL if
the hook passes the call on, and the calls that its failure diagnostics (`fprintf`,
`print_backtrace_to_file`) make if the hook fails it. -/
inductive Call
  | mk (fn : Alloc) (size : Nat) (realNull : Bool) (diagnostics : List Call)

/-- The process state the hooks read and write. `grace_period` is an `int` that starts at
1000 and is decremented only while positive, so it is a `Nat` here. -/
structure State where
  recursionDepth : Int
  /-- `badMalloc != nullptr` -/
  installed : Bool
  gracePeriod : Nat
  /-- How many times `distribution->operator()(gen)` has been drawn. -/
  draws : Nat
  deriving DecidableEq, Repr

/-- Program start: no `BadMalloc`, and `shouldFail`'s static not yet decremented. -/
def State.init : State := ⟨0, false, 1000, 0⟩

/-- What one call saw: the `recursion_depth` it ran at, whether the hooks were installed,
whether `shouldFail` failed it, and whether it returned `nullptr`. -/
structure Outcome where
  fn : Alloc
  size : Nat
  depth : Int
  installed : Bool
  injected : Bool
  returnedNull : Bool
  deriving DecidableEq, Repr

section Hooks
variable (draw : Nat → Bool)

/-- `BadMalloc::shouldFail` -/
def shouldFail (s : State) : State × Bool :=
  if s.gracePeriod > 0 then ({ s with gracePeriod := s.gracePeriod - 1 }, false)
  else if s.recursionDepth > 1 then (s, false)
  else ({ s with draws := s.draws + 1 }, draw s.draws)

mutual
/-- The body of the interposed `malloc` and `realloc`: the state after the call, and the
outcome of this call followed by those of the calls its diagnostics made. -/
def allocHook : Call → State → State × List Outcome
  | .mk fn size realNull diagnostics, s =>
    let s := { s with recursionDepth := s.recursionDepth + 1 }
    let depth := s.recursionDepth
    let installed := s.installed
    let (s, fail) := if installed then shouldFail draw s else (s, false)
    if fail then
      let (s, nested) := allocHooks diagnostics s
      ({ s with recursionDepth := s.recursionDepth - 1 },
        ⟨fn, size, depth, installed, true, true⟩ :: nested)
    else
      ({ s with recursionDepth := s.recursionDepth - 1 },
        [⟨fn, size, depth, installed, false, realNull⟩])

/-- Calls made one after another. -/
def allocHooks : List Call → State → State × List Outcome
  | [], s => (s, [])
  | c :: cs, s =>
    let (s, first) := allocHook c s
    let (s, rest) := allocHooks cs s
    (s, first ++ rest)
end

/-- `malloc(size)`; `realNull` is what `real_malloc(size)` would return. -/
def malloc (size : Nat) (realNull : Bool) (diagnostics : List Call) (s : State) :
    State × List Outcome :=
  allocHook draw (.mk .malloc size realNull diagnostics) s

/-- `realloc(ptr, size)`; `realNull` is what `real_realloc(ptr, size)` would return. -/
def realloc (size : Nat) (realNull : Bool) (diagnostics : List Call) (s : State) :
    State × List Outcome :=
  allocHook draw (.mk .realloc size realNull diagnostics) s

/-- `init_alloc_hooks`: `new BadMalloc()` and its constructor allocate through the hooks as
they stand, then `badMalloc.reset` installs the new object. -/
def initAllocHooks (construction : List Call) (s : State) : State × List Outcome :=
  let (s, outcomes) := allocHooks draw construction s
  ({ s with installed := true }, outcomes)

/-- What the program does next. -/
inductive Op
  | call (c : Call)
  | initAllocHooks (construction : List Call)

def step : Op → State → State × List Outcome
  | .call c, s => allocHook draw c s
  | .initAllocHooks construction, s => initAllocHooks draw construction s

def run : List Op → State → State × List Outcome
  | [], s => (s, [])
  | op :: ops, s =>
    let (s, first) := step draw op s
    let (s, rest) := run ops s
    (s, first ++ rest)

end Hooks

/-! ## The failure rule -/

/-- The calls made with the hooks installed: each of them asked `shouldFail`. -/
def asked (os : List Outcome) : Nat := (os.filter (·.installed)).length

@[simp] theorem asked_nil : asked [] = 0 := rfl

@[simp] theorem asked_append (os₁ os₂ : List Outcome) :
    asked (os₁ ++ os₂) = asked os₁ + asked os₂ := by
  simp [asked]

@[simp] theorem asked_cons (o : Outcome) (os : List Outcome) :
    asked (o :: os) = (if o.installed then 1 else 0) + asked os := by
  cases h : o.installed <;> simp [asked, List.filter_cons, h, Nat.add_comm]

/-- The rule the outcomes of calls made from `s` follow: each ran deeper than `s`, and had a
failure injected only at depth at most 1, with the hooks installed, once the installed calls
before it had used up `s`'s grace period. -/
def Follows (s : State) (os : List Outcome) : Prop :=
  ∀ pre o post, os = pre ++ o :: post →
    s.recursionDepth < o.depth ∧
      (o.injected = true → o.depth ≤ 1 ∧ o.installed = true ∧ s.gracePeriod ≤ asked pre)

theorem follows_nil (s : State) : Follows s [] := by
  intro pre o post h
  exact absurd h.symm (by simp)

theorem follows_singleton {s : State} {o : Outcome} (hd : s.recursionDepth < o.depth)
    (hf : o.injected = true → o.depth ≤ 1 ∧ o.installed = true ∧ s.gracePeriod = 0) :
    Follows s [o] := by
  intro pre o' post h
  rcases pre with _ | ⟨x, pre⟩
  · obtain ⟨rfl, -⟩ := List.cons_eq_cons.1 h
    exact ⟨hd, fun hfail => ⟨(hf hfail).1, (hf hfail).2.1, by simp [(hf hfail).2.2]⟩⟩
  · exact absurd (List.cons_eq_cons.1 h).2 (by simp)

theorem Follows.append {s s₁ : State} {os₁ os₂ : List Outcome} (h₁ : Follows s os₁)
    (h₂ : Follows s₁ os₂) (hd : s.recursionDepth ≤ s₁.recursionDepth)
    (hg : s.gracePeriod ≤ s₁.gracePeriod + asked os₁) : Follows s (os₁ ++ os₂) := by
  intro pre o post h
  rcases List.append_eq_append_iff.1 h with ⟨a', rfl, ha⟩ | ⟨c', rfl, hc⟩
  · obtain ⟨hlt, hf⟩ := h₂ a' o post ha
    refine ⟨by omega, fun hfail => ?_⟩
    obtain ⟨h1, h2, h3⟩ := hf hfail
    exact ⟨h1, h2, by rw [asked_append]; omega⟩
  · rcases c' with _ | ⟨o', c'⟩
    · obtain ⟨hlt, hf⟩ := h₂ [] o post (by simpa using hc.symm)
      refine ⟨by omega, fun hfail => ?_⟩
      obtain ⟨h1, h2, h3⟩ := hf hfail
      exact ⟨h1, h2, by simp only [List.append_nil, asked_nil] at hg h3 ⊢; omega⟩
    · obtain ⟨rfl, rfl⟩ := List.cons_eq_cons.1 hc
      exact h₁ pre o c' rfl

section Hooks
variable (draw : Nat → Bool)

/-- What one call can do: go on to the real function, using up one unit of the grace period if
the hooks are installed; or, only with the hooks installed, the grace period used up and no
other call running, fail after the calls its diagnostics make one level deeper. -/
theorem allocHook_cases (fn : Alloc) (size : Nat) (realNull : Bool) (diagnostics : List Call)
    (s : State) :
    (allocHook draw (.mk fn size realNull diagnostics) s).2 =
          [⟨fn, size, s.recursionDepth + 1, s.installed, false, realNull⟩] ∧
        (allocHook draw (.mk fn size realNull diagnostics) s).1.recursionDepth = s.recursionDepth ∧
        (allocHook draw (.mk fn size realNull diagnostics) s).1.gracePeriod =
          s.gracePeriod - (if s.installed then 1 else 0) ∨
      s.installed = true ∧ s.gracePeriod = 0 ∧ s.recursionDepth + 1 ≤ 1 ∧
        allocHook draw (.mk fn size realNull diagnostics) s =
          let r := allocHooks draw diagnostics
            { s with recursionDepth := s.recursionDepth + 1, draws := s.draws + 1 }
          ({ r.1 with recursionDepth := r.1.recursionDepth - 1 },
            ⟨fn, size, s.recursionDepth + 1, true, true, true⟩ :: r.2) := by
  unfold allocHook shouldFail
  cases hi : s.installed
  · simp
  by_cases hg : s.gracePeriod > 0
  · simp [hg]
  replace hg : s.gracePeriod = 0 := by omega
  by_cases hd : s.recursionDepth + 1 > 1
  · simp [hg, hd]
  cases hdraw : draw s.draws
  · simp [hg, hd, hdraw]
  · right; simp [hg, hd, hdraw]; omega

mutual
/-- Each call returns `recursion_depth` to where it found it, and uses up one unit of the grace
period per installed call while any is left. -/
theorem allocHook_frame : ∀ (c : Call) (s : State),
    (allocHook draw c s).1.recursionDepth = s.recursionDepth ∧
      (allocHook draw c s).1.gracePeriod = s.gracePeriod - asked (allocHook draw c s).2
  | .mk fn size realNull diagnostics, s => by
    rcases allocHook_cases draw fn size realNull diagnostics s with ⟨h, hd, hg⟩ | ⟨-, hg, -, h⟩
    · refine ⟨hd, ?_⟩
      rw [hg, h]
      cases s.installed <;> rfl
    · have hn := allocHooks_frame diagnostics
        { s with recursionDepth := s.recursionDepth + 1, draws := s.draws + 1 }
      rw [h]
      simp only at hn ⊢
      exact ⟨by omega, by rw [hn.2, hg, Nat.zero_sub, Nat.zero_sub]⟩

theorem allocHooks_frame : ∀ (cs : List Call) (s : State),
    (allocHooks draw cs s).1.recursionDepth = s.recursionDepth ∧
      (allocHooks draw cs s).1.gracePeriod = s.gracePeriod - asked (allocHooks draw cs s).2
  | [], s => by simp [allocHooks]
  | c :: cs, s => by
    have h₁ := allocHook_frame c s
    have h₂ := allocHooks_frame cs (allocHook draw c s).1
    simp only [allocHooks, asked_append]
    refine ⟨h₂.1.trans h₁.1, by rw [h₂.2, h₁.2, Nat.sub_sub]⟩
end

mutual
theorem allocHook_follows : ∀ (c : Call) (s : State), Follows s (allocHook draw c s).2
  | .mk fn size realNull diagnostics, s => by
    rcases allocHook_cases draw fn size realNull diagnostics s with ⟨h, -⟩ | ⟨-, hg, hd, h⟩ <;>
      rw [h]
    · exact follows_singleton (Int.lt_succ _) nofun
    · exact (follows_singleton (Int.lt_succ _) fun _ => ⟨hd, rfl, hg⟩).append
        (allocHooks_follows diagnostics _) (by simp only; omega) (by simp [hg])

theorem allocHooks_follows : ∀ (cs : List Call) (s : State), Follows s (allocHooks draw cs s).2
  | [], s => follows_nil s
  | c :: cs, s => by
    have h₁ := allocHook_follows c s
    have h₂ := allocHooks_follows cs (allocHook draw c s).1
    obtain ⟨hd, hg⟩ := allocHook_frame draw c s
    exact h₁.append h₂ (by omega) (by omega)
end

theorem step_frame (op : Op) (s : State) :
    (step draw op s).1.recursionDepth = s.recursionDepth ∧
      (step draw op s).1.gracePeriod = s.gracePeriod - asked (step draw op s).2 := by
  cases op with
  | call c => exact allocHook_frame draw c s
  | initAllocHooks construction => exact allocHooks_frame draw construction s

theorem step_follows (op : Op) (s : State) : Follows s (step draw op s).2 := by
  cases op with
  | call c => exact allocHook_follows draw c s
  | initAllocHooks construction => exact allocHooks_follows draw construction s

theorem run_frame_follows (ops : List Op) (s : State) :
    (run draw ops s).1.recursionDepth = s.recursionDepth ∧ Follows s (run draw ops s).2 := by
  induction ops generalizing s with
  | nil => exact ⟨rfl, follows_nil s⟩
  | cons op ops ih =>
    obtain ⟨hd, hg⟩ := step_frame draw op s
    obtain ⟨hd', hf'⟩ := ih (step draw op s).1
    exact ⟨hd'.trans hd, (step_follows draw op s).append hf' (by omega) (by omega)⟩

/-- Over every run of one thread of the program from its start, every sequence of draws and
every result of the real allocator: `recursion_depth` is 0 once the run's calls have returned,
and every call the hooks failed ran at depth 1, so the program made it itself (the calls a
failing call's diagnostics make run at depth 2 or more and never have a failure injected),
after at least 1000 calls made with the hooks installed. -/
theorem badMalloc_fails_top_level_after_grace (ops : List Op) :
    (run draw ops State.init).1.recursionDepth = 0 ∧
      ∀ pre o post, (run draw ops State.init).2 = pre ++ o :: post → o.injected = true →
        o.depth = 1 ∧ 1000 ≤ asked pre := by
  obtain ⟨hd, hf⟩ := run_frame_follows draw ops State.init
  refine ⟨hd, fun pre o post h hfail => ?_⟩
  obtain ⟨hlt, hrule⟩ := hf pre o post h
  obtain ⟨h1, -, hg⟩ := hrule hfail
  exact ⟨by simp only [State.init] at hlt; omega, hg⟩

/-- With the grace period used up and every draw failing, a call the program makes fails, and
the call its diagnostics make goes on to the real `malloc`, which here returns NULL. -/
example : malloc (fun _ => true) 8 false [.mk .malloc 64 true []] ⟨0, true, 0, 0⟩ =
    (⟨0, true, 0, 1⟩, [⟨.malloc, 8, 1, true, true, true⟩, ⟨.malloc, 64, 2, true, false, true⟩]) := by
  decide

end Hooks

end Memcached.BadMalloc
