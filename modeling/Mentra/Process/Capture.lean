import Mathlib

/-!
# Captured output

`read_capped` in `process/capture.rs` reads a stream to its end and keeps its head and its
tail.  The room for the marker between them is set aside beforehand, so a stream that would
fit under the cap can be cut as well.
-/

namespace Mentra.Process

open List

def elisionMarkerReserve : Nat := 64
def minCapForTwoWindows : Nat := 256
def tailLineBoundaryWindow : Nat := 512

structure CapturedStream where
  bytes : List UInt8
  truncated : Bool

def headBudget (maxBytes : Nat) : Nat :=
  if maxBytes < minCapForTwoWindows then maxBytes else (maxBytes - elisionMarkerReserve) / 2

def tailBudget (maxBytes : Nat) : Nat :=
  if maxBytes < minCapForTwoWindows then 0
  else maxBytes - elisionMarkerReserve - headBudget maxBytes

/-- What is kept while the stream is read. -/
structure Capture where
  head : List UInt8 := []
  tail : List UInt8 := []
  elided : Nat := 0

namespace Capture

/-- The body of the loop. -/
def read (maxBytes : Nat) (capture : Capture) (chunk : List UInt8) : Capture :=
  let room := headBudget maxBytes - capture.head.length
  let head := capture.head ++ chunk.take room
  let chunk := chunk.drop room
  if chunk = [] then { capture with head }
  else if tailBudget maxBytes = 0 then
    { capture with head, elided := capture.elided + chunk.length }
  else if tailBudget maxBytes ≤ chunk.length then
    { head
      tail := chunk.drop (chunk.length - tailBudget maxBytes)
      elided := capture.elided + (capture.tail.length + (chunk.length - tailBudget maxBytes)) }
  else
    let overflow := capture.tail.length + chunk.length - tailBudget maxBytes
    { head, tail := capture.tail.drop overflow ++ chunk, elided := capture.elided + overflow }

/-- Where the tail starts on a line of its own, if that is near. -/
def boundary (tail : List UInt8) : Nat :=
  match (tail.take tailLineBoundaryWindow).findIdx? (· = 10) with
  | some index => if index + 1 < tail.length then index + 1 else 0
  | none => 0

def marker (elided : Nat) : List UInt8 :=
  ("\n[... " ++ elided.repr ++ " bytes elided ...]\n").toList.map fun char => char.toNat.toUInt8

def finish (capture : Capture) : CapturedStream :=
  if capture.elided = 0 then ⟨capture.head ++ capture.tail, false⟩
  else if capture.tail = [] then ⟨capture.head, true⟩
  else
    let start := boundary capture.tail
    ⟨capture.head ++ marker (capture.elided + start) ++ capture.tail.drop start, true⟩

/-- What is kept of a stream, however it was read. -/
def ofStream (maxBytes : Nat) (stream : List UInt8) : Capture :=
  let rest := stream.drop (headBudget maxBytes)
  { head := stream.take (headBudget maxBytes)
    tail := rest.drop (rest.length - tailBudget maxBytes)
    elided := rest.length - tailBudget maxBytes }

theorem read_ofStream (maxBytes : Nat) (stream chunk : List UInt8) :
    (ofStream maxBytes stream).read maxBytes chunk = ofStream maxBytes (stream ++ chunk) := by
  have room : headBudget maxBytes - (stream.take (headBudget maxBytes)).length =
      headBudget maxBytes - stream.length := by
    rw [length_take]
    omega
  simp only [read, ofStream, room, take_append, drop_append]
  generalize stream.drop (headBudget maxBytes) = rest
  generalize chunk.drop (headBudget maxBytes - stream.length) = more
  split
  · rename_i none
    simp [none]
  · split
    · rename_i none
      simp [none]
    · simp only [length_drop, length_append]
      split
      · rename_i long
        have all : rest.length ≤ rest.length + more.length - tailBudget maxBytes := by omega
        rw [drop_eq_nil_of_le all, nil_append, Nat.sub_right_comm, Nat.add_sub_cancel_left]
        congr 1
        omega
      · rename_i short
        have none : rest.length + more.length - tailBudget maxBytes - rest.length = 0 := by omega
        rw [drop_drop, none, drop_zero]
        congr 1
        · congr 2
          omega
        · omega

end Capture

def readCapped (chunks : List (List UInt8)) (maxBytes : Nat) : CapturedStream :=
  (chunks.foldl (Capture.read maxBytes) {}).finish

theorem readCapped_eq (chunks : List (List UInt8)) (maxBytes : Nat) :
    readCapped chunks maxBytes = (Capture.ofStream maxBytes chunks.flatten).finish := by
  have folded : ∀ stream, chunks.foldl (Capture.read maxBytes) (.ofStream maxBytes stream) =
      .ofStream maxBytes (stream ++ chunks.flatten) := by
    induction chunks with
    | nil => simp
    | cons chunk chunks ih =>
      intro stream
      rw [foldl_cons, Capture.read_ofStream, ih, flatten_cons, append_assoc]
  rw [readCapped, ← nil_append chunks.flatten, ← folded []]
  congr 2
  simp [Capture.ofStream]

namespace Capture

theorem boundary_le (tail : List UInt8) : boundary tail ≤ tail.length := by
  rw [boundary]
  split
  · split <;> omega
  · exact Nat.zero_le _

theorem length_marker_le {elided : Nat} (short : elided < 2 ^ 64) :
    (marker elided).length ≤ 45 := by
  have digits := Nat.repr_length elided 20 (by decide) (by omega)
  have length : (marker elided).length = 6 + elided.repr.length + 19 := by
    rw [marker, length_map, String.length_toList, String.length_append, String.length_append]
    congr 1
  omega

theorem truncated_finish {capture : Capture} :
    capture.finish.truncated = true ↔ capture.elided ≠ 0 := by
  rw [finish]
  split
  · simp [*]
  · split <;> simp [*]

/-- A front and a back of the stream, and how much lies between them. -/
structure Keeps (maxBytes : Nat) (stream : List UInt8) (capture : Capture) : Prop where
  front : capture.head <+: stream
  back : capture.tail <:+ stream
  total : capture.head.length + capture.elided + capture.tail.length = stream.length
  head : capture.head.length ≤ headBudget maxBytes
  tail : capture.tail.length ≤ tailBudget maxBytes
  full : capture.elided ≠ 0 → capture.tail.length = tailBudget maxBytes
  whole : capture.elided = 0 → capture.head ++ capture.tail = stream

theorem keeps_ofStream (maxBytes : Nat) (stream : List UInt8) :
    (ofStream maxBytes stream).Keeps maxBytes stream where
  front := take_prefix _ _
  back := (drop_suffix _ _).trans (drop_suffix _ _)
  total := by
    simp only [ofStream, length_take, length_drop]
    omega
  head := length_take_le _ _
  tail := by
    simp only [ofStream, length_drop]
    omega
  full some := by
    simp only [ofStream, length_drop] at some ⊢
    omega
  whole none := by
    simp only [ofStream] at none ⊢
    rw [none, drop_zero, take_append_drop]

end Capture

/-- What is captured does not depend on the reads, is within the cap, and is the whole stream
or, with two windows, a front and a back of it with the number of the bytes between them. -/
theorem readCapped_spec {chunks : List (List UInt8)} (maxBytes : Nat)
    (short : chunks.flatten.length < 2 ^ 64) :
    (∀ others, others.flatten = chunks.flatten →
        readCapped others maxBytes = readCapped chunks maxBytes) ∧
      (readCapped chunks maxBytes).bytes.length ≤ maxBytes ∧
      ((readCapped chunks maxBytes).truncated = false →
        (readCapped chunks maxBytes).bytes = chunks.flatten) ∧
      ((readCapped chunks maxBytes).truncated = true → minCapForTwoWindows ≤ maxBytes →
        ∃ front elided back, front <+: chunks.flatten ∧ back <:+ chunks.flatten ∧
          (readCapped chunks maxBytes).bytes = front ++ Capture.marker elided ++ back ∧
          front.length + back.length + elided = chunks.flatten.length) := by
  refine ⟨fun others same => by rw [readCapped_eq, readCapped_eq, same], ?_⟩
  rw [readCapped_eq]
  obtain ⟨front, back, total, head, tail, full, whole⟩ :=
    Capture.keeps_ofStream maxBytes chunks.flatten
  generalize Capture.ofStream maxBytes chunks.flatten = capture at *
  have budgets : headBudget maxBytes + tailBudget maxBytes ≤ maxBytes ∧
      (tailBudget maxBytes ≠ 0 ∨ 256 ≤ maxBytes → 0 < tailBudget maxBytes ∧
        headBudget maxBytes + tailBudget maxBytes + 64 = maxBytes) := by
    rw [headBudget, tailBudget, headBudget, minCapForTwoWindows, elisionMarkerReserve]
    split <;> omega
  rw [Capture.finish, minCapForTwoWindows]
  split
  · rename_i none
    rw [whole none]
    exact ⟨by dsimp only; omega, fun _ => rfl, nofun⟩
  · rename_i some
    have full := full some
    split
    · rename_i noTail
      rw [noTail, length_nil] at full
      exact ⟨by dsimp only; omega, nofun, fun _ two => by omega⟩
    · rename_i someTail
      rw [← length_eq_zero_iff, full] at someTail
      have start := Capture.boundary_le capture.tail
      have marked := @Capture.length_marker_le (capture.elided + Capture.boundary capture.tail)
        (by omega)
      refine ⟨?_, nofun, fun _ _ => ⟨_, _, _, front, (drop_suffix _ _).trans back, rfl, ?_⟩⟩
      · simp only [length_append, length_drop]
        omega
      · rw [length_drop]
        omega

/-- Of two reads of 200 bytes, which are more than the cap, both ends are kept. -/
theorem readCapped_two_reads :
    let chunks : List (List UInt8) := [replicate 200 97, replicate 200 98]
    (readCapped chunks 256).bytes.length ≤ 256 ∧ (readCapped chunks 256).truncated = true ∧
      ∃ front elided back, front <+: chunks.flatten ∧ back <:+ chunks.flatten ∧
        (readCapped chunks 256).bytes = front ++ Capture.marker elided ++ back ∧
        front.length + back.length + elided = chunks.flatten.length := by
  intro chunks
  obtain ⟨-, short, -, cut⟩ := @readCapped_spec chunks 256 (by decide +kernel)
  have truncated : (readCapped chunks 256).truncated = true := by decide +kernel
  exact ⟨short, truncated, cut truncated (by decide)⟩

/-- A stream under the cap is kept whole exactly when it leaves the room that is set
aside for a marker, whether or not there will be one. -/
theorem readCapped_whole_iff {chunks : List (List UInt8)} {maxBytes : Nat}
    (fits : chunks.flatten.length ≤ maxBytes) :
    readCapped chunks maxBytes = ⟨chunks.flatten, false⟩ ↔
      maxBytes < minCapForTwoWindows ∨ chunks.flatten.length ≤ maxBytes - elisionMarkerReserve := by
  rw [readCapped_eq]
  have keeps := Capture.keeps_ofStream maxBytes chunks.flatten
  have none : (Capture.ofStream maxBytes chunks.flatten).elided = 0 ↔
      maxBytes < minCapForTwoWindows ∨ chunks.flatten.length ≤ maxBytes - elisionMarkerReserve := by
    simp only [Capture.ofStream, length_drop, tailBudget, headBudget]
    split <;> omega
  rw [← none]
  constructor
  · intro whole
    by_contra some
    rw [← ne_eq, ← Capture.truncated_finish, whole] at some
    cases some
  · intro none
    rw [Capture.finish, if_pos none, keeps.whole none]

theorem readCapped_small : readCapped [[97], [98]] 2 = ⟨[97, 98], false⟩ :=
  (readCapped_whole_iff (by decide)).mpr (by decide)

/-- 193 bytes are cut although the cap is 256. -/
theorem readCapped_cut_under_cap : (readCapped [replicate 193 97] 256).truncated = true := by
  decide +kernel

end Mentra.Process
