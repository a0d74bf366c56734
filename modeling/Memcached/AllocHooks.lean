import Memcached.Protocol
import Mathlib

set_option autoImplicit false

/-!
# `write_cb` and `jemalloc_get_detailed_stats`

`jemalloc_get_detailed_stats` (src/daemon/alloc_hooks.c) has `je_malloc_stats_print` pass its
output, message by message, to `write_cb`, which appends each message to the caller's buffer of
`nbuffer` bytes. It keeps `sizeof(cropped_error)` bytes in reserve so that, once a message does
not fit, it can write `cropped_error` in its place and ignore the messages after it.

Memory is a map from offsets into the caller's buffer to bytes, so a write past the buffer is a
write like any other and the theorems say where the writes go. A message is a C string, the
bytes before its NUL; `je_malloc_stats_print` is outside the sources, so the messages are any
list of them.
-/

namespace Memcached.AllocHooks
open Memcached.Protocol

/-- A C string: the bytes before its terminating NUL. -/
structure CStr where
  bytes : Bytes
  noNul : ∀ b ∈ bytes, b ≠ 0

/-- The caller's memory, by offset from the start of `buffer`. -/
abbrev Memory := Nat → UInt8

/-- The bytes of an ASCII string literal. -/
def ascii (s : String) : Bytes := s.toList.map fun c => c.toNat.toUInt8

def croppedError : Bytes := ascii "=== Exceeded buffer size - output cropped ===\n"

/-- `sizeof(cropped_error)`: the text and its NUL. -/
def sizeofCroppedError : Nat := croppedError.length + 1

/-- `bs` written from offset `dst` on. -/
def store (mem : Memory) (dst : Nat) (bs : Bytes) : Memory :=
  fun i => if dst ≤ i then bs.getD (i - dst) (mem i) else mem i

/-- `snprintf(dst, size, "%s", msg)`: at most `size - 1` bytes of `msg` and a NUL, nothing when
`size` is 0; it returns `strlen(msg)`, the length the whole output would have had. -/
def snprintf (mem : Memory) (dst size : Nat) (msg : CStr) : Memory × Nat :=
  (if size = 0 then mem else store mem dst (msg.bytes.take (size - 1) ++ [0]), msg.bytes.length)

/-- `sprintf(dst, cropped_error)`: the format has no conversion, so it writes the text and a
NUL. -/
def sprintfCroppedError (mem : Memory) (dst : Nat) : Memory := store mem dst (croppedError ++ [0])

/-- `struct write_state`; `buffer` is an offset into the caller's buffer. -/
structure WriteState where
  buffer : Nat
  remaining : Int
  cropped : Bool
  deriving DecidableEq, Repr

/-- `write_cb`. The `int` `st->remaining` is passed to `snprintf` as a `size_t`. -/
def writeCb (mem : Memory) (st : WriteState) (msg : CStr) : Memory × WriteState :=
  if st.cropped then (mem, st)
  else
    let (mem, len) := snprintf mem st.buffer (st.remaining % 2 ^ 64).toNat msg
    if (len : Int) > st.remaining then
      (sprintfCroppedError mem st.buffer, { st with cropped := true })
    else (mem, { st with buffer := st.buffer + len, remaining := st.remaining - len })

/-- `jemalloc_get_detailed_stats(buffer, nbuffer)`, with `je_malloc_stats_print` passing
`msgs` to `write_cb` in turn. -/
def jemallocGetDetailedStats (mem : Memory) (nbuffer : Int) (msgs : List CStr) :
    Memory × WriteState :=
  msgs.foldl (fun s msg => writeCb s.1 s.2 msg) (mem, ⟨0, nbuffer - sizeofCroppedError, false⟩)

/-- The NUL-terminated text at the start of the buffer, if its NUL lies in the first `n`
bytes. -/
def textWithin (mem : Memory) (n : Nat) : Option Bytes :=
  if 0 ∈ (List.range n).map mem then some (((List.range n).map mem).takeWhile (· != 0))
  else none

/-- The messages one after the other. -/
def flat (msgs : List CStr) : Bytes := (msgs.map CStr.bytes).flatten

/-- The texts the specification allows after `msgs`: all of them, or the first `k` of them
followed by `cropped_error`. -/
def WholeOrCropped (msgs : List CStr) (text : Bytes) : Prop :=
  text = flat msgs ∨ ∃ k, text = flat (msgs.take k) ++ croppedError

/-! ## Memory -/

/-- `B` from the start of the buffer, and `mem` beyond it. -/
def overlay (B : Bytes) (mem : Memory) : Memory := fun i => B.getD i (mem i)

@[simp] theorem flat_nil : flat [] = [] := rfl

@[simp] theorem flat_append (a b : List CStr) : flat (a ++ b) = flat a ++ flat b := by
  simp [flat]

@[simp] theorem flat_singleton (m : CStr) : flat [m] = m.bytes := by simp [flat]

@[simp] theorem flat_cons (m : CStr) (msgs : List CStr) : flat (m :: msgs) = m.bytes ++ flat msgs :=
  by simp [flat]

theorem zero_not_mem_flat (msgs : List CStr) : 0 ∉ flat msgs := by
  simp only [flat, List.mem_flatten, List.mem_map]
  rintro ⟨_, ⟨m, -, rfl⟩, h⟩
  exact m.noNul 0 h rfl

theorem croppedError_length : croppedError.length = 46 := by decide

theorem zero_not_mem_croppedError : (0 : UInt8) ∉ croppedError := by decide

@[simp] theorem overlay_nil (mem : Memory) : overlay [] mem = mem := rfl

theorem overlay_of_length_le {B : Bytes} {i : Nat} (h : B.length ≤ i) (mem : Memory) :
    overlay B mem i = mem i := by
  simp [overlay, List.getD_eq_getElem?_getD, List.getElem?_eq_none h]

theorem store_overlay {B : Bytes} {p : Nat} (hp : p ≤ B.length) (mem : Memory) (bs : Bytes) :
    store (overlay B mem) p bs = overlay (B.take p ++ bs ++ B.drop (p + bs.length)) mem := by
  funext i
  have htake : (B.take p).length = p := by simp [hp]
  simp only [store, overlay, List.getD_eq_getElem?_getD]
  by_cases hi : p ≤ i
  · rw [if_pos hi, List.append_assoc, List.getElem?_append_right (by omega), htake]
    by_cases hb : i - p < bs.length
    · rw [List.getElem?_append_left hb, List.getElem?_eq_getElem hb]; rfl
    · rw [List.getElem?_append_right (by omega), List.getElem?_eq_none (by omega),
        List.getElem?_drop, Option.getD_none, show p + bs.length + (i - p - bs.length) = i by omega]
  · rw [if_neg hi, List.append_assoc, List.getElem?_append_left (by omega),
      List.getElem?_take_of_lt (by omega)]

theorem store_overlay_append {P X bs : Bytes} (h : X.length ≤ bs.length) (mem : Memory) :
    store (overlay (P ++ X) mem) P.length bs = overlay (P ++ bs) mem := by
  rw [store_overlay (by simp), List.take_left, List.drop_eq_nil_of_le (by simp; omega),
    List.append_nil]

theorem map_range_overlay {B : Bytes} {n : Nat} (h : B.length ≤ n) (mem : Memory) :
    (List.range n).map (overlay B mem) =
      B ++ (List.range (n - B.length)).map fun j => mem (B.length + j) := by
  obtain ⟨k, rfl⟩ := Nat.exists_eq_add_of_le h
  rw [List.range_add, List.map_append, List.map_map, Nat.add_sub_cancel_left]
  congr 1
  · refine List.ext_getElem (by simp) fun i h₁ h₂ => ?_
    simp [overlay, List.getD_eq_getElem?_getD, List.getElem?_eq_getElem h₂]
  · refine List.map_congr_left fun j _ => ?_
    exact overlay_of_length_le (by simp) mem

theorem textWithin_overlay {t J : Bytes} {n : Nat} (ht : 0 ∉ t) (hn : (t ++ 0 :: J).length ≤ n)
    (mem : Memory) : textWithin (overlay (t ++ 0 :: J) mem) n = some t := by
  have hne : ∀ b ∈ t, (b != 0) = true := fun b hb => by
    simpa using fun h : b = 0 => ht (h ▸ hb)
  rw [textWithin, map_range_overlay hn, if_pos (by simp), List.append_assoc,
    List.takeWhile_append_of_pos hne]
  simp

/-! ## One callback -/

section Callback
variable (mem : Memory) (p : Nat) {r : Nat} (m : CStr)

theorem toNat_emod_of_lt (hr : r < 2 ^ 64) : ((r : Int) % 2 ^ 64).toNat = r := by
  rw [Int.emod_eq_of_lt (by omega) (by exact_mod_cast hr)]
  omega

theorem writeCb_of_cropped {st : WriteState} (h : st.cropped = true) :
    writeCb mem st m = (mem, st) := by
  simp [writeCb, h]

theorem writeCb_fits (hr : r < 2 ^ 64) (h : m.bytes.length < r) :
    writeCb mem ⟨p, r, false⟩ m = (store mem p (m.bytes ++ [0]),
      ⟨p + m.bytes.length, ((r - m.bytes.length : Nat) : Int), false⟩) := by
  simp only [writeCb, snprintf, toNat_emod_of_lt hr, if_neg (by omega : r ≠ 0),
    List.take_of_length_le (by omega : m.bytes.length ≤ r - 1), Bool.false_eq_true, if_false]
  rw [if_neg (by omega)]
  congr 2
  omega

/-- A message that exactly fills the room left: `snprintf` truncates it to make room for its
NUL and returns its length, which is not more than the room, so the callback goes on. -/
theorem writeCb_exact (hr : r < 2 ^ 64) (h : m.bytes.length = r) :
    writeCb mem ⟨p, r, false⟩ m =
      (if r = 0 then mem else store mem p (m.bytes.dropLast ++ [0]), ⟨p + r, 0, false⟩) := by
  simp only [writeCb, snprintf, toNat_emod_of_lt hr, h, Bool.false_eq_true, if_false]
  rw [if_neg (Int.lt_irrefl _), Int.sub_self, List.dropLast_eq_take, h]

theorem writeCb_crops (hr : r < 2 ^ 64) (h : r < m.bytes.length) :
    writeCb mem ⟨p, r, false⟩ m = (sprintfCroppedError
      (if r = 0 then mem else store mem p (m.bytes.take (r - 1) ++ [0])) p, ⟨p, r, true⟩) := by
  simp only [writeCb, snprintf, toNat_emod_of_lt hr, Bool.false_eq_true, if_false]
  rw [if_pos (by exact_mod_cast h)]

theorem writeCb_crops_overlay {P X : Bytes} (hX : X.length ≤ 1) (hr : r < 2 ^ 64)
    (h : r < m.bytes.length) :
    ∃ J, writeCb (overlay (P ++ X) mem) ⟨P.length, r, false⟩ m =
        (overlay (P ++ croppedError ++ 0 :: J) mem, ⟨P.length, r, true⟩) ∧
      (croppedError ++ 0 :: J).length ≤ max sizeofCroppedError r := by
  have hc := croppedError_length
  rw [writeCb_crops _ _ _ hr h, sprintfCroppedError]
  by_cases hr0 : r = 0
  · rw [if_pos hr0, store_overlay_append (by simp; omega)]
    exact ⟨[], by simp, by
      simp only [List.length_append, List.length_cons, List.length_nil, sizeofCroppedError]; omega⟩
  · have hlen : (m.bytes.take (r - 1) ++ [0]).length = r := by simp; omega
    rw [if_neg hr0, store_overlay_append (by omega), store_overlay (by simp)]
    refine ⟨(m.bytes.take (r - 1) ++ [0]).drop sizeofCroppedError, ?_, ?_⟩
    · simp [sizeofCroppedError]
    · simp only [List.length_append, List.length_cons, List.length_drop, hlen, sizeofCroppedError]
      omega

end Callback

/-! ## What the buffer holds after the callbacks -/

section Run
variable (mem₀ : Memory) (R₀ : Nat)

/-- Texts that stop before the end of the messages, with `R₀` bytes of room: the first `k`
messages and `cropped_error`, when message `k + 1` did not fit and the first `k` had not filled
the room exactly; or, when the first `k` messages filled the room exactly, those messages less
their last byte. -/
def Cut (msgs : List CStr) (t : Bytes) : Prop :=
  (∃ k < msgs.length, (flat (msgs.take k)).length ≤ R₀ ∧
      R₀ < (flat (msgs.take (k + 1))).length ∧ ¬(0 < R₀ ∧ (flat (msgs.take k)).length = R₀) ∧
      t = flat (msgs.take k) ++ croppedError) ∨
    ∃ k ≤ msgs.length, (flat (msgs.take k)).length = R₀ ∧ 0 < R₀ ∧
      t = (flat (msgs.take k)).dropLast

theorem Cut.concat {msgs : List CStr} {t : Bytes} (h : Cut R₀ msgs t) (m : CStr) :
    Cut R₀ (msgs ++ [m]) t := by
  rcases h with ⟨k, hk, h⟩ | ⟨k, hk, h⟩
  · refine .inl ⟨k, by simp; omega, ?_⟩
    rwa [List.take_append_of_le_length hk.le, List.take_append_of_le_length hk]
  · refine .inr ⟨k, by simp; omega, ?_⟩
    rwa [List.take_append_of_le_length hk]

/-- The buffer and the write state once `write_cb` has been called with `msgs`, from `R₀` bytes
of room and memory `mem₀`: untouched, while only empty messages came to no room; the messages
and a NUL, while they fit; the messages less their last byte and a NUL, once they filled the
room exactly; or, once cropped, a text that stops before the end of the messages and a NUL,
within the buffer. -/
def Written (msgs : List CStr) (s : Memory × WriteState) : Prop :=
  (s = (mem₀, ⟨0, R₀, false⟩) ∧ flat msgs = [] ∧ (msgs = [] ∨ R₀ = 0)) ∨
    (s = (overlay (flat msgs ++ [0]) mem₀,
        ⟨(flat msgs).length, ((R₀ - (flat msgs).length : Nat) : Int), false⟩) ∧
      (flat msgs).length < R₀) ∨
    (s = (overlay ((flat msgs).dropLast ++ [0]) mem₀, ⟨R₀, 0, false⟩) ∧
      (flat msgs).length = R₀ ∧ 0 < R₀) ∨
    (s.2.cropped = true ∧ ∃ t J, s.1 = overlay (t ++ 0 :: J) mem₀ ∧
      (t ++ 0 :: J).length ≤ R₀ + sizeofCroppedError ∧ 0 ∉ t ∧ Cut R₀ msgs t)

theorem Written.concat_of_fits {msgs : List CStr} {X : Bytes} (hR : R₀ < 2 ^ 64)
    (hX : X = [0] ∧ (flat msgs).length < R₀ ∨ X = [] ∧ flat msgs = [] ∧ (msgs = [] ∨ R₀ = 0))
    (m : CStr) :
    Written mem₀ R₀ (msgs ++ [m]) (writeCb (overlay (flat msgs ++ X) mem₀)
      ⟨(flat msgs).length, ((R₀ - (flat msgs).length : Nat) : Int), false⟩ m) := by
  have hc := croppedError_length
  have hXlen : X.length ≤ 1 := by rcases hX with ⟨rfl, -⟩ | ⟨rfl, -⟩ <;> simp
  have hF : (flat msgs).length ≤ R₀ := by
    rcases hX with ⟨-, h⟩ | ⟨-, h, -⟩
    · omega
    · simp [h]
  have hr : R₀ - (flat msgs).length < 2 ^ 64 := by omega
  rcases lt_trichotomy m.bytes.length (R₀ - (flat msgs).length) with hlt | heq | hgt
  · -- the message and its NUL fit
    rw [writeCb_fits _ _ _ hr hlt, store_overlay_append (by simp; omega)]
    refine .inr (.inl ⟨?_, by simp; omega⟩)
    simp only [flat_append, flat_singleton, List.append_assoc, List.length_append, Nat.sub_sub]
  · rw [writeCb_exact _ _ _ hr heq]
    by_cases hr0 : R₀ - (flat msgs).length = 0
    · -- an empty message and no room: only before anything was written
      rcases hX with ⟨-, h⟩ | ⟨rfl, h, -⟩
      · omega
      have hR0 : R₀ = 0 := by simpa [h] using hr0
      have hmb : m.bytes = [] := List.eq_nil_of_length_eq_zero (by omega)
      exact .inl ⟨by simp [h, hR0], by simp [h, hmb], .inr hR0⟩
    · -- the message fills the room exactly
      have hmb : m.bytes ≠ [] := fun e => hr0 (by simp [e] at heq; omega)
      rw [if_neg hr0, store_overlay_append (by simp; omega)]
      refine .inr (.inr (.inl ⟨?_, by simp; omega, by omega⟩))
      rw [flat_append, flat_singleton, List.dropLast_append_of_ne_nil _ hmb, List.append_assoc]
      congr 2
      omega
  · -- the message does not fit: cropped after the messages before it
    obtain ⟨J, hw, hJ⟩ := writeCb_crops_overlay mem₀ m hXlen hr hgt
    rw [hw]
    refine .inr (.inr (.inr ⟨rfl, flat msgs ++ croppedError, J, by simp, ?_,
      by simp [zero_not_mem_flat, zero_not_mem_croppedError], .inl ⟨msgs.length, by simp, ?_⟩⟩))
    · simp only [List.append_assoc, List.length_append] at hJ ⊢
      simp only [sizeofCroppedError] at hJ ⊢
      omega
    · have h₁ : (msgs ++ [m]).take msgs.length = msgs := by simp
      have h₂ : (msgs ++ [m]).take (msgs.length + 1) = msgs ++ [m] :=
        List.take_of_length_le (by simp)
      rw [h₁, h₂]
      refine ⟨hF, by simp; omega, fun ⟨hpos, heq⟩ => ?_, rfl⟩
      rcases hX with ⟨-, h⟩ | ⟨-, h, -⟩
      · omega
      · simp [h] at heq; omega

theorem Written.concat_of_exact {msgs : List CStr} (hF : (flat msgs).length = R₀) (hpos : 0 < R₀)
    (hR : R₀ < 2 ^ 64) (m : CStr) :
    Written mem₀ R₀ (msgs ++ [m])
      (writeCb (overlay ((flat msgs).dropLast ++ [0]) mem₀) ⟨R₀, 0, false⟩ m) := by
  have hc := croppedError_length
  have hP : ((flat msgs).dropLast ++ [0]).length = R₀ := by simp; omega
  by_cases hm : m.bytes = []
  · have hw := @writeCb_exact (overlay ((flat msgs).dropLast ++ [0]) mem₀) R₀ 0 m
      (Nat.two_pow_pos 64) (by simp [hm])
    simp only [show ((0 : Nat) : Int) = 0 from rfl, if_true, Nat.add_zero] at hw
    rw [hw]
    exact .inr (.inr (.inl ⟨by simp [hm], by simp [hm, hF], hpos⟩))
  · obtain ⟨J, hw, hJ⟩ := @writeCb_crops_overlay mem₀ 0 m ((flat msgs).dropLast ++ [0]) []
      (by simp) (Nat.two_pow_pos 64) (List.length_pos.mpr hm)
    simp only [List.append_nil, show ((0 : Nat) : Int) = 0 from rfl, hP] at hw
    rw [hw]
    refine .inr (.inr (.inr ⟨rfl, (flat msgs).dropLast, croppedError ++ 0 :: J, by simp, ?_,
      fun h => zero_not_mem_flat msgs (List.dropLast_subset _ h),
      .inr ⟨msgs.length, by simp, by simpa using hF, hpos, by simp⟩⟩))
    simp only [List.length_append, List.length_cons, List.length_dropLast, sizeofCroppedError]
      at hJ ⊢
    omega

theorem Written.concat {msgs : List CStr} {s : Memory × WriteState} (h : Written mem₀ R₀ msgs s)
    (hR : R₀ < 2 ^ 64) (m : CStr) : Written mem₀ R₀ (msgs ++ [m]) (writeCb s.1 s.2 m) := by
  rcases h with ⟨rfl, hF, hm⟩ | ⟨rfl, hF⟩ | ⟨rfl, hF, hpos⟩ | ⟨hc, t, J, hmem, hlen, ht, hcut⟩
  · have h := Written.concat_of_fits mem₀ R₀ hR (.inr ⟨rfl, hF, hm⟩) m
    simp only [hF, List.append_nil, overlay_nil, List.length_nil, Nat.sub_zero] at h
    exact h
  · exact Written.concat_of_fits mem₀ R₀ hR (.inl ⟨rfl, hF⟩) m
  · exact Written.concat_of_exact mem₀ R₀ hF hpos hR m
  · rw [writeCb_of_cropped _ _ hc]
    exact .inr (.inr (.inr ⟨hc, t, J, hmem, hlen, ht, hcut.concat R₀ m⟩))

/-- Run lemma: the description holds after any further messages. -/
theorem Written.foldl {msgs : List CStr} {s : Memory × WriteState} (h : Written mem₀ R₀ msgs s)
    (hR : R₀ < 2 ^ 64) (rest : List CStr) :
    Written mem₀ R₀ (msgs ++ rest) (rest.foldl (fun s msg => writeCb s.1 s.2 msg) s) := by
  induction rest generalizing msgs s with
  | nil => simpa using h
  | cons m rest ih => simpa using ih (h.concat mem₀ R₀ hR m)

theorem written_jemallocGetDetailedStats (hR : R₀ < 2 ^ 64) (msgs : List CStr) :
    Written mem₀ R₀ msgs
      (jemallocGetDetailedStats mem₀ ((R₀ + sizeofCroppedError : Nat) : Int) msgs) := by
  have h₀ : Written mem₀ R₀ [] (mem₀, ⟨0, R₀, false⟩) := .inl ⟨rfl, rfl, .inl rfl⟩
  simpa [jemallocGetDetailedStats] using h₀.foldl mem₀ R₀ hR msgs

theorem Written.text {msgs : List CStr} {s : Memory × WriteState} (h : Written mem₀ R₀ msgs s) :
    (∀ i, R₀ + sizeofCroppedError ≤ i → s.1 i = mem₀ i) ∧
      ((s.1 = mem₀ ∧ flat msgs = []) ∨ ∃ t, textWithin s.1 (R₀ + sizeofCroppedError) = some t ∧
        ((t = flat msgs ∧ (flat msgs).length < R₀) ∨ Cut R₀ msgs t)) := by
  have hc := croppedError_length
  rcases h with ⟨rfl, hF, -⟩ | ⟨rfl, hF⟩ | ⟨rfl, hF, hpos⟩ | ⟨-, t, J, hmem, hlen, ht, hcut⟩
  · exact ⟨fun _ _ => rfl, .inl ⟨rfl, hF⟩⟩
  · have hB : (flat msgs ++ [0]).length ≤ R₀ + sizeofCroppedError := by
      simp [sizeofCroppedError]; omega
    exact ⟨fun i hi => overlay_of_length_le (by omega) mem₀,
      .inr ⟨_, textWithin_overlay (zero_not_mem_flat msgs) hB mem₀, .inl ⟨rfl, hF⟩⟩⟩
  · have hB : ((flat msgs).dropLast ++ [0]).length ≤ R₀ + sizeofCroppedError := by
      simp [sizeofCroppedError]; omega
    exact ⟨fun i hi => overlay_of_length_le (by omega) mem₀,
      .inr ⟨_, textWithin_overlay (fun h => zero_not_mem_flat msgs (List.dropLast_subset _ h)) hB
        mem₀, .inr (.inr ⟨msgs.length, le_rfl, by simpa using hF, hpos, by simp⟩)⟩⟩
  · rw [hmem]
    exact ⟨fun i hi => overlay_of_length_le (by omega) mem₀,
      .inr ⟨t, textWithin_overlay ht hlen mem₀, .inr hcut⟩⟩

end Run

/-- The room `jemalloc_get_detailed_stats` leaves before the reserve for `cropped_error`, and the
description of the buffer after the callbacks. -/
theorem written_of_nbuffer (mem₀ : Memory) {nbuffer : Int} (hn : sizeofCroppedError ≤ nbuffer)
    (hint : nbuffer < 2 ^ 31) (msgs : List CStr) :
    ∃ R₀, nbuffer.toNat = R₀ + sizeofCroppedError ∧
      Written mem₀ R₀ msgs (jemallocGetDetailedStats mem₀ nbuffer msgs) := by
  obtain ⟨R₀, rfl⟩ : ∃ R₀ : Nat, nbuffer = ((R₀ + sizeofCroppedError : Nat) : Int) :=
    ⟨(nbuffer - sizeofCroppedError).toNat, by omega⟩
  have hR : R₀ < 2 ^ 64 := by
    have : (2 : Int) ^ 31 < 2 ^ 64 := by decide
    omega
  exact ⟨R₀, Int.toNat_ofNat _, written_jemallocGetDetailedStats mem₀ R₀ hR msgs⟩

/-- For every buffer with room for `cropped_error` and every list of messages, nothing past the
buffer is written. The buffer is left untouched only when every message was empty. Otherwise its
NUL-terminated text lies within it and is all the messages, when they fit with their NUL, or
stops before their end: the first `k` messages and `cropped_error`, or the first `k` less their
last byte when those filled the room exactly. -/
theorem jemallocGetDetailedStats_text (mem₀ : Memory) {nbuffer : Int}
    (hn : sizeofCroppedError ≤ nbuffer) (hint : nbuffer < 2 ^ 31) (msgs : List CStr) :
    (∀ i, nbuffer.toNat ≤ i → (jemallocGetDetailedStats mem₀ nbuffer msgs).1 i = mem₀ i) ∧
      (((jemallocGetDetailedStats mem₀ nbuffer msgs).1 = mem₀ ∧ flat msgs = []) ∨
        ∃ t, textWithin (jemallocGetDetailedStats mem₀ nbuffer msgs).1 nbuffer.toNat = some t ∧
          ((t = flat msgs ∧ (flat msgs).length < nbuffer.toNat - sizeofCroppedError) ∨
            Cut (nbuffer.toNat - sizeofCroppedError) msgs t)) := by
  obtain ⟨R₀, hN, hW⟩ := written_of_nbuffer mem₀ hn hint msgs
  rw [hN, Nat.add_sub_cancel]
  exact hW.text mem₀ R₀

/-- Two messages, `ab` and `cd`. -/
def abcdMessages : List CStr := [⟨[97, 98], by decide⟩, ⟨[99, 100], by decide⟩]

theorem jemallocGetDetailedStats_text_abcd :
    sizeofCroppedError ≤ (64 : Int) ∧ (64 : Int) < 2 ^ 31 ∧
      ((∀ i, (64 : Int).toNat ≤ i → (jemallocGetDetailedStats (fun _ => 0) 64 abcdMessages).1 i = 0) ∧
        (((jemallocGetDetailedStats (fun _ => 0) 64 abcdMessages).1 = (fun _ => 0) ∧
            flat abcdMessages = []) ∨
          ∃ t, textWithin (jemallocGetDetailedStats (fun _ => 0) 64 abcdMessages).1 (64 : Int).toNat =
              some t ∧
            ((t = flat abcdMessages ∧
                (flat abcdMessages).length < (64 : Int).toNat - sizeofCroppedError) ∨
              Cut ((64 : Int).toNat - sizeofCroppedError) abcdMessages t))) :=
  ⟨by decide, by decide, jemallocGetDetailedStats_text (fun _ => 0) (by decide) (by decide) _⟩

/-- In a 64-byte buffer the two messages are the text. -/
example : textWithin (jemallocGetDetailedStats (fun _ => 0) 64 abcdMessages).1 64 =
    some [97, 98, 99, 100] := by decide

/-- A first message that exactly fills the room before the reserve ends, whatever comes after:
`snprintf` drops its last byte for the NUL and returns its full length, which the
`len > st->remaining` check lets through, so the text left is that message less its last byte,
and `cropped_error`, if written at all, lies after the NUL. -/
theorem writeCb_exact_fit_drops_last_byte (mem₀ : Memory) {nbuffer : Int} (hint : nbuffer < 2 ^ 31)
    (m : CStr) (rest : List CStr) (hm : (m.bytes.length : Int) = nbuffer - sizeofCroppedError)
    (hpos : m.bytes ≠ []) (hcrop : m.bytes.dropLast ≠ croppedError) :
    textWithin (jemallocGetDetailedStats mem₀ nbuffer (m :: rest)).1 nbuffer.toNat =
        some m.bytes.dropLast ∧ ¬WholeOrCropped (m :: rest) m.bytes.dropLast := by
  have hc := croppedError_length
  have hlen := List.length_pos.mpr hpos
  obtain ⟨R₀, hN, hW⟩ := written_of_nbuffer mem₀ (by omega) hint (m :: rest)
  have hR : R₀ = m.bytes.length := by omega
  obtain ⟨-, hflat | ⟨t, ht, ⟨-, hlt⟩ | hcut⟩⟩ := hW.text mem₀ R₀
  · simp [hpos] at hflat
  · simp at hlt; omega
  rw [hR] at hcut
  rw [hN]
  refine ⟨ht.trans (congrArg some ?_), ?_⟩
  · rcases hcut with ⟨k, -, hle, hgt, hne, -⟩ | ⟨k, -, heq, -, rfl⟩
    · cases k with
      | zero => simp at hgt
      | succ k =>
        simp only [List.take_succ_cons, flat_cons, List.length_append] at hle hne
        omega
    · cases k with
      | zero => simp at heq; omega
      | succ k =>
        have hnil : flat (rest.take k) = [] := by simpa using heq
        simp [hnil]
  · rintro (h | ⟨k, h⟩)
    · have := congrArg List.length h
      simp at this; omega
    · cases k with
      | zero => exact hcrop (by simpa using h)
      | succ k =>
        have := congrArg List.length h
        simp at this; omega

theorem writeCb_exact_fit_drops_last_byte_ab :
    textWithin (jemallocGetDetailedStats (fun _ => 0) 49 [⟨[97, 98], by decide⟩]).1 (49 : Int).toNat =
        some [97] ∧ ¬WholeOrCropped [⟨[97, 98], by decide⟩] [97] :=
  writeCb_exact_fit_drops_last_byte (fun _ => 0) (by decide) ⟨[97, 98], by decide⟩ [] (by decide)
    (by decide) (by decide)

end Memcached.AllocHooks
