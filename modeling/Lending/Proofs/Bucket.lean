import Lending.Split
import Mathlib.Tactic.Ring

/-! The buckets of applications.

The digest is eight words, whatever is digested, so its first eight bytes are those of its first
two words, and the bucket is the number that they make, modulo a hundred. Nothing else depends on
the digest: whichever it is, buckets are below a hundred, and a challenger with a larger share keeps
the buckets it had. -/
namespace Lending

namespace Digest

/-- The number that bytes make, the highest first. -/
def number (bytes : List UInt8) : Nat :=
  bytes.foldl (fun n byte => 256 * n + byte.toNat) 0

/-- The bytes of words. -/
def bytes (ws : List UInt32) : List UInt8 :=
  ws.flatMap fun w => bigEndian 4 w.toNat

/-! ### The length of a digest -/

theorem length_round (state : List UInt32) (wk : UInt32 × UInt32) :
    (round state wk).length = state.length := by
  unfold round
  split <;> rfl

theorem length_rounds (schedule : List (UInt32 × UInt32)) (state : List UInt32) :
    (schedule.foldl round state).length = state.length := by
  induction schedule generalizing state with
  | nil => rfl
  | cons wk rest ih => rw [List.foldl_cons, ih, length_round]

theorem length_compress (state block : List UInt32) :
    (compress state block).length = state.length := by
  rw [compress, List.length_zipWith, length_rounds, Nat.min_self]

theorem length_sha256 (bytes : List UInt8) : (sha256 bytes).length = 8 := by
  have aux (blocks : List (List UInt32)) (state : List UInt32) :
      (blocks.foldl compress state).length = state.length := by
    induction blocks generalizing state with
    | nil => rfl
    | cons block rest ih => rw [List.foldl_cons, ih, length_compress]
  exact aux _ initial

/-! ### Bytes -/

theorem length_bigEndian (size n : Nat) : (bigEndian size n).length = size := by
  rw [bigEndian, List.length_map, List.length_range]

theorem bigEndian_succ (size n : Nat) :
    bigEndian (size + 1) n = UInt8.ofNat (n / 256 ^ size) :: bigEndian size n := by
  rw [bigEndian, List.range_succ_eq_map, List.map_cons, List.map_map]
  refine congrArg₂ _ rfl (List.map_congr_left fun i hi => ?_)
  show UInt8.ofNat (n / 256 ^ (size + 1 - 1 - (i + 1))) = UInt8.ofNat (n / 256 ^ (size - 1 - i))
  congr 3
  omega

/-- A number is read back from its bytes, as far as they go. -/
theorem foldl_bigEndian (size n high : Nat) :
    (bigEndian size n).foldl (fun n byte => 256 * n + byte.toNat) high =
      high * 256 ^ size + n % 256 ^ size := by
  induction size generalizing high with
  | zero => simp [bigEndian, Nat.mod_one]
  | succ size ih =>
    have hsplit : n % 256 ^ (size + 1) = n % 256 ^ size + 256 ^ size * (n / 256 ^ size % 256) :=
      Nat.mod_pow_succ
    have hbyte : (UInt8.ofNat (n / 256 ^ size)).toNat = n / 256 ^ size % 256 := UInt8.toNat_ofNat'
    rw [bigEndian_succ, List.foldl_cons, ih, hbyte, hsplit]
    ring

theorem foldl_word (w : UInt32) (high : Nat) :
    (bigEndian 4 w.toNat).foldl (fun n byte => 256 * n + byte.toNat) high =
      high * 2 ^ 32 + w.toNat := by
  have hlt : w.toNat < 256 ^ 4 := w.toNat_lt
  rw [foldl_bigEndian, Nat.mod_eq_of_lt hlt, show 256 ^ 4 = 2 ^ 32 from rfl]

end Digest

namespace Split
open Lending.Digest

theorem leading_eq {digest : List UInt32} (h : 2 ≤ digest.length) :
    leading digest = number ((bytes digest).take 8) := by
  obtain ⟨high, low, rest, rfl⟩ : ∃ high low rest, digest = high :: low :: rest := by
    match digest, h with
    | high :: low :: rest, _ => exact ⟨high, low, rest, rfl⟩
  have htake : (bytes (high :: low :: rest)).take 8 =
      bigEndian 4 high.toNat ++ bigEndian 4 low.toNat := by
    rw [bytes, List.flatMap_cons, List.flatMap_cons, ← List.append_assoc]
    refine List.take_left' ?_
    rw [List.length_append, length_bigEndian, length_bigEndian]
  rw [htake, number, List.foldl_append, foldl_word, foldl_word]
  simp [leading]

/-- The bucket is the number that the first eight bytes of the digest make, modulo a hundred. -/
theorem bucket_eq (applicationId : String) :
    bucket applicationId =
      number ((bytes (sha256 applicationId.toUTF8.toList)).take 8) % 100 := by
  have hlength : 2 ≤ (sha256 applicationId.toUTF8.toList).length := by
    rw [length_sha256]
    decide
  rw [bucket, leading_eq hlength]

theorem bucket_lt (applicationId : String) (digest : Digest) : bucket applicationId digest < 100 :=
  Nat.mod_lt _ (by decide)

/-! ### Arms -/

section
variable (s : Split) (applicationId : String) (digest : Digest)

theorem arm_zero : arm { s with percent := 0 } applicationId digest = .champion := by
  rw [arm, armOf, if_neg (Nat.not_lt_zero _)]

theorem arm_hundred : arm { s with percent := 100 } applicationId digest = .challenger := by
  rw [arm, armOf, if_pos (bucket_lt applicationId digest)]

variable {s applicationId digest}

theorem arm_eq_challenger_iff : s.arm applicationId digest = .challenger ↔
    bucket applicationId digest < s.percent := by
  unfold arm armOf
  split
  · next h => simp [h]
  · next h => simp [h]

/-- A challenger keeps its applications when its share grows. -/
theorem arm_mono {p q : Nat} (hle : p ≤ q)
    (h : arm { s with percent := p } applicationId digest = .challenger) :
    arm { s with percent := q } applicationId digest = .challenger :=
  arm_eq_challenger_iff.2 (Nat.lt_of_lt_of_le (arm_eq_challenger_iff.1 h) hle)

end

end Split

end Lending
