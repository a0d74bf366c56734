import Memcached.AllocHooks
import Mathlib

set_option autoImplicit false

/-!
# `ioctl_get_property` and `ioctl_set_property`

The request key picks what `ioctl.cc` does, compared as the code compares it: `strncmp` against
the literal followed by a length test, `std::string ==` against a literal, and `find` of a prefix
at position 0. The value for `tcmalloc.aggressive_memory_decommit` is read by `strtol` from a
NUL-terminated copy, and passed on as a `size_t`.

The allocator's properties, `release_free_memory`, `apply_connection_trace_mask` and
`IOCTL_VAL_LENGTH` live in files that are not in `src/`: they are fields of `Host`, and the calls
that change the daemon are returned as a list of effects. Whether `strtol` sets `errno` when it
reads no digit is left to the C library (glibc does not, the BSDs set `EINVAL`), so it is a field
too. The `LOG_NOTICE` lines are left out.
-/

namespace Memcached.Ioctl
open Memcached.Protocol Memcached.AllocHooks

/-! ## The C library -/

/-- `strncmp(s1, s2, n)`: the difference of the first differing bytes among the first `n`,
stopping after a NUL; a string that runs out reads as NUL. -/
def strncmp : Nat → Bytes → Bytes → Int
  | 0, _, _ => 0
  | n + 1, s₁, s₂ =>
    if s₁.headD 0 ≠ s₂.headD 0 then ((s₁.headD 0).toNat : Int) - (s₂.headD 0).toNat
    else if s₁.headD 0 = 0 then 0
    else strncmp n s₁.tail s₂.tail

/-- Comparing `keylen` bytes with a literal (and its NUL), then checking `keylen` against its
length, accepts exactly the literal's bytes: a key with a NUL or of any other length is refused. -/
theorem strncmp_eq_zero_iff (lit : List UInt8) (hlit : ∀ b ∈ lit, b ≠ 0) (key : Bytes) :
    strncmp key.length (lit ++ [0]) key = 0 ∧ key.length = lit.length ↔ key = lit := by
  induction lit generalizing key with
  | nil => cases key <;> simp [strncmp]
  | cons c cs ih =>
    have hc : c ≠ 0 := hlit c (List.mem_cons_self c cs)
    cases key with
    | nil => simp
    | cons k ks =>
      by_cases hck : c = k
      · subst hck
        simp [strncmp, hc, ih (fun b hb => hlit b (List.mem_cons_of_mem c hb))]
      · have : (c.toNat : Int) - k.toNat ≠ 0 := by
          have := mt UInt8.toNat.inj hck
          omega
        simp [strncmp, hck, this, Ne.symm hck]

/-- `std::string::find(s)`: the first position from which `s` occurs, `none` for `npos`. -/
def find (str s : Bytes) : Option Nat :=
  (List.range (str.length + 1)).find? fun i => s.isPrefixOf (str.drop i)

theorem find_eq_some_zero_iff (str s : Bytes) : find str s = some 0 ↔ s.isPrefixOf str = true := by
  rw [find, List.range_succ_eq_map, List.find?_cons]
  cases h : s.isPrefixOf (str.drop 0)
  · simp only [List.drop_zero] at h
    simp only [h, Bool.false_eq_true, iff_false]
    intro hf
    obtain ⟨i, -, hi⟩ := List.mem_map.mp (List.mem_of_find?_eq_some hf)
    exact Nat.succ_ne_zero i hi
  · simpa using h

/-- `isspace` in the "C" locale. -/
def isspace (c : UInt8) : Bool := c == 0x20 || (0x09 ≤ c && c ≤ 0x0d)

def isdigit (c : UInt8) : Bool := 0x30 ≤ c && c ≤ 0x39

/-- The value of a run of decimal digits, most significant first. -/
def digitsValue (ds : Bytes) : Nat := ds.foldl (fun v d => 10 * v + (d.toNat - 0x30)) 0

/-- `LONG_MIN` and `LONG_MAX` of an LP64 `long`. -/
def longMin : Int := -2 ^ 63
def longMax : Int := 2 ^ 63 - 1

/-- What `strtol` reads after the white space: an optional sign, then the rest. -/
def readSign : Bytes → Bool × Bytes
  | c :: t => if c = 0x2d then (true, t) else if c = 0x2b then (false, t) else (false, c :: t)
  | [] => (false, [])

/-- `strtol(s, NULL, 10)` on a NUL-terminated buffer: skip white space, read an optional sign and
the longest run of digits; the value is clamped to `long`, with `ERANGE`. `none` when there is no
digit, where `strtol` returns 0. -/
def strtol (s : Bytes) : Option (Int × Bool) :=
  let (neg, rest) := readSign (s.dropWhile isspace)
  match rest.takeWhile isdigit with
  | [] => none
  | ds =>
    let v : Int := if neg then -(digitsValue ds : Int) else digitsValue ds
    if v < longMin then some (longMin, true)
    else if longMax < v then some (longMax, true)
    else some (v, false)

theorem strtol_eq_none_iff (s : Bytes) :
    strtol s = none ↔ isdigit (((readSign (s.dropWhile isspace)).2).headD 0) = false := by
  unfold strtol
  rcases readSign (s.dropWhile isspace) with ⟨neg, _ | ⟨c, t⟩⟩
  · simp; decide
  · by_cases hc : isdigit c = true
    · simp only [List.takeWhile_cons, hc, if_true, List.headD_cons]
      split_ifs <;> simp
    · simp [List.takeWhile_cons, hc]

/-! ## The ioctl calls -/

/-- What `ioctl.cc` reaches outside `src/`, and the build it is compiled in. -/
structure Host where
  /-- `HAVE_TCMALLOC`. -/
  haveTcmalloc : Bool
  /-- `IOCTL_VAL_LENGTH` (`ioctl.h`). -/
  ioctlValLength : Nat
  /-- `AllocHooks::get_allocator_property(name, &value)`: the value, when it returns true. -/
  getAllocatorProperty : Bytes → Option Nat
  /-- `AllocHooks::set_allocator_property(name, value)`. -/
  setAllocatorProperty : Bytes → Nat → Bool
  /-- `apply_connection_trace_mask(key, value)`. -/
  applyConnectionTraceMask : Bytes → Bytes → EngineErrorCode
  /-- Whether `strtol` sets `errno` (to `EINVAL`) when it reads no digit. -/
  strtolNoDigitsErrno : Bool

/-- The calls of `ioctl_set_property` that change the daemon. -/
inductive Effect
  | releaseFreeMemory
  | setAllocatorProperty (name : Bytes) (value : Nat)
  | applyConnectionTraceMask (key value : Bytes)
  deriving DecidableEq, Repr

def decommitName : CStr := ⟨ascii "tcmalloc.aggressive_memory_decommit", by decide⟩
def releaseFreeMemoryName : CStr := ⟨ascii "release_free_memory", by decide⟩
def traceConnectionPrefix : Bytes := ascii "trace.connection."

/-- `ioctl_get_property(key, keylen, &value)`: the code and the value written. -/
def ioctlGetProperty (host : Host) (key : Bytes) : EngineErrorCode × Option Nat :=
  if host.haveTcmalloc ∧ strncmp key.length (decommitName.bytes ++ [0]) key = 0 ∧
      key.length = decommitName.bytes.length then
    match host.getAllocatorProperty decommitName.bytes with
    | some v => (.success, some v)
    | none => (.einval, none)
  else (.einval, none)

/-- `ioctl_set_property(c, key, keylen, value, vallen)`: the code, and the calls it made. -/
def ioctlSetProperty (host : Host) (key value : Bytes) : EngineErrorCode × List Effect :=
  if key = releaseFreeMemoryName.bytes then (.success, [.releaseFreeMemory])
  else if host.haveTcmalloc ∧ key = decommitName.bytes then
    if value.length > host.ioctlValLength then (.einval, [])
    else
      -- `errno = 0; intval = strtol(val_buffer, NULL, 10);` on `value` and its NUL
      let (intval, errno) : Int × Bool := match strtol (value ++ [0]) with
        | some (v, erange) => (v, erange)
        | none => (0, host.strtolNoDigitsErrno)
      if errno then (.einval, [])
      else
        -- `set_allocator_property` takes a `size_t`
        let v := (intval % 2 ^ 64).toNat
        (if host.setAllocatorProperty decommitName.bytes v then .success else .einval,
          [.setAllocatorProperty decommitName.bytes v])
  else if find key traceConnectionPrefix = some 0 then
    (host.applyConnectionTraceMask key value, [.applyConnectionTraceMask key value])
  else (.einval, [])

/-! ## The key decides -/

theorem ioctlGetProperty_eq (host : Host) (key : Bytes) :
    ioctlGetProperty host key =
      if host.haveTcmalloc ∧ key = decommitName.bytes then
        (host.getAllocatorProperty decommitName.bytes).elim (.einval, none) fun v => (.success, some v)
      else (.einval, none) := by
  unfold ioctlGetProperty
  simp only [strncmp_eq_zero_iff decommitName.bytes decommitName.noNul key]
  cases host.getAllocatorProperty decommitName.bytes <;> rfl

/-- The key alone picks the action, and only the keys the code names pick one: `ioctl_get` answers
exactly the key `tcmalloc.aggressive_memory_decommit` (any other bytes, a NUL inside or another
length, get `EINVAL`), `ioctl_set` hands every key that starts with `trace.connection.` to
`apply_connection_trace_mask` with the value untouched, and any key it does not name gets `EINVAL`
without a call. -/
theorem ioctl_key_dispatch (host : Host) (key value : Bytes) :
    ioctlGetProperty host key =
        (if host.haveTcmalloc ∧ key = decommitName.bytes then
          (host.getAllocatorProperty decommitName.bytes).elim (.einval, none) fun v => (.success, some v)
        else (.einval, none)) ∧
      (traceConnectionPrefix.isPrefixOf key = true →
        ioctlSetProperty host key value =
          (host.applyConnectionTraceMask key value, [.applyConnectionTraceMask key value])) ∧
      (key ≠ releaseFreeMemoryName.bytes → ¬(host.haveTcmalloc ∧ key = decommitName.bytes) →
        traceConnectionPrefix.isPrefixOf key = false → ioctlSetProperty host key value = (.einval, [])) := by
  refine ⟨ioctlGetProperty_eq host key, fun hp => ?_, fun h₁ h₂ h₃ => ?_⟩
  · have h₁ : key ≠ releaseFreeMemoryName.bytes := by rintro rfl; exact absurd hp (by decide)
    have h₂ : key ≠ decommitName.bytes := by rintro rfl; exact absurd hp (by decide)
    simp [ioctlSetProperty, h₁, h₂, (find_eq_some_zero_iff key _).2 hp]
  · have h₄ : find key traceConnectionPrefix ≠ some 0 := by
      rw [Ne, find_eq_some_zero_iff, h₃]; decide
    simp only [ioctlSetProperty, h₁, h₂, h₄, if_false]

/-- `tcmalloc.aggressive_memory_decommit` with a value whose first byte after the white space and
an optional sign is not a digit (the NUL that ends it included), such as `true` or `on`: on a C
library that leaves `errno` alone when `strtol` reads no number (glibc), the property is set to
0, and the call answers `SUCCESS` when the allocator takes it. -/
theorem ioctl_set_decommit_no_number (host : Host) (value : Bytes) (ht : host.haveTcmalloc = true)
    (hl : value.length ≤ host.ioctlValLength)
    (hn : isdigit ((readSign ((value ++ [0]).dropWhile isspace)).2.headD 0) = false)
    (he : host.strtolNoDigitsErrno = false) :
    ioctlSetProperty host decommitName.bytes value =
      (if host.setAllocatorProperty decommitName.bytes 0 then .success else .einval,
        [.setAllocatorProperty decommitName.bytes 0]) := by
  have h₁ : decommitName.bytes ≠ releaseFreeMemoryName.bytes := by decide
  simp [ioctlSetProperty, h₁, ht, (strtol_eq_none_iff _).2 hn, he, Nat.not_lt.2 hl]

/-- A glibc host with tcmalloc whose allocator takes every value. -/
def glibcHost : Host where
  haveTcmalloc := true
  ioctlValLength := 128
  getAllocatorProperty _ := some 1
  setAllocatorProperty _ _ := true
  applyConnectionTraceMask _ _ := .success
  strtolNoDigitsErrno := false

/-- The value `true` turns the property to 0. -/
theorem ioctl_set_decommit_no_number_true :
    isdigit ((readSign ((ascii "true" ++ [0]).dropWhile isspace)).2.headD 0) = false ∧
      ioctlSetProperty glibcHost decommitName.bytes (ascii "true") =
        (.success, [.setAllocatorProperty decommitName.bytes 0]) :=
  ⟨by decide, ioctl_set_decommit_no_number glibcHost (ascii "true") rfl (by decide) (by decide) rfl⟩

end Memcached.Ioctl
