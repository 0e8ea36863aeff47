import Mentra.Transcript.Tree

/-!
# Branches of transcripts read from disk

A transcript that is read back is data: its parent links may form a cycle or lead nowhere, and
ids may occur twice.  The walk of `path_to` only depends on the id it has come to, so a walk
that ends has met no id twice.
-/

namespace Mentra.AgentTranscript

open Mentra.Foundation List Option Transition
open Mentra.Foundation.ParentLinks

variable {V : Type}

/-! ## The walk -/

/-- The ids on the way up from an id, each the parent of the entry found for the
one before. -/
inductive Leads (transcript : AgentTranscript V) : Option EntryId → List EntryId → Prop
  | done : Leads transcript none []
  | next {current : EntryId} {item : TranscriptItem V} {path : List EntryId}
      (found : transcript.entry current = some item)
      (rest : Leads transcript item.parentId path) :
      Leads transcript (some current) (current :: path)

variable {transcript rest : AgentTranscript V} {cursor : Option EntryId} {path : List EntryId}

variable {id : EntryId}

theorem leads_of_pathLoop {target : EntryId} {room : Nat} {walked result : List EntryId}
    (walks : transcript.pathLoop target room cursor walked = .ok result) :
    ∃ path, Leads transcript cursor path ∧ result = path.reverse ++ walked := by
  induction room generalizing cursor walked with
  | zero =>
    rw [pathLoop.eq_def] at walks
    split at walks
    · cases walks
      exact ⟨[], .done, rfl⟩
    · split at walks
      · cases walks
      · cases walks
  | succ room ih =>
    cases cursor with
    | none =>
      cases walks
      exact ⟨[], .done, rfl⟩
    | some current =>
      rw [pathLoop] at walks
      split at walks
      · cases walks
      · rename_i item found
        obtain ⟨path, leads, rfl⟩ := ih walks
        exact ⟨current :: path, .next found leads, by simp⟩

/-! ## Taking entries -/

theorem takeAnywhere_perm {item : TranscriptItem V}
    (taken : transcript.takeAnywhere id = some (item, rest)) :
    item.id = id ∧ transcript.entries.Perm (item :: rest.entries) := by
  have removed {nodes : List (TranscriptItem V)} (found : nodes.find? (·.id = id) = some item) :
      item.id = id ∧ nodes.Perm (item :: nodes.eraseP (·.id = id)) := by
    refine ⟨by simpa using find?_some found, ?_⟩
    obtain ⟨isItem, front, back, rfl, earlier⟩ := find?_eq_some_iff_append.mp found
    rw [eraseP_append_right _ (fun other mem => by simpa using earlier other mem),
      eraseP_cons, isItem]
    exact perm_middle
  rw [takeAnywhere] at taken
  split at taken
  · rename_i found
    cases taken
    exact ⟨(removed found).1, (removed found).2.append_right _⟩
  · split at taken
    · rename_i found
      cases taken
      exact ⟨(removed found).1, ((removed found).2.append_left _).trans perm_middle⟩
    · cases taken

theorem takePath_perm {restored : List (TranscriptItem V)}
    (taken : takePath path transcript = some (restored, rest)) :
    restored.map TranscriptItem.id = path ∧
      transcript.entries.Perm (restored ++ rest.entries) := by
  induction path generalizing transcript restored with
  | nil =>
    cases taken
    exact ⟨rfl, .refl _⟩
  | cons id path ih =>
    simp only [takePath, bind_eq_bind, bind_eq_some_iff] at taken
    obtain ⟨⟨item, middle⟩, first, ⟨others, last⟩, later, same⟩ := taken
    cases same
    obtain ⟨isId, perm⟩ := takeAnywhere_perm first
    obtain ⟨ids, perm'⟩ := ih later
    exact ⟨by rw [map_cons, isId, ids], perm.trans (perm'.cons item)⟩

theorem branchFrom_perm {left : Nat} {after : AgentTranscript V}
    (branched : transcript.branchFrom id = .ok (left, after)) :
    after.entries.Perm transcript.entries := by
  rw [branchFrom] at branched
  split at branched
  · cases branched
    refine (perm_append_comm.append_left _).trans ?_
    rw [← append_assoc, take_append_drop, entries]
  · split at branched
    · split at branched
      · cases branched
      · split at branched
        · cases branched
        · rename_i taken
          cases branched
          exact (perm_append_comm.append_left _).trans (takePath_perm taken).2.symm
    · cases branched

end Mentra.AgentTranscript
