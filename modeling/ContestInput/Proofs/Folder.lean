import ContestInput.Folder
import ContestInput.Proofs.Fallible
/-!
# Files that were written

A file that is written to a folder is found again at the same path, and no other file changes. On
the way to a file a path only passes dots, so its end does not depend on the files there are.
-/

namespace ContestInput

open Fallible

namespace Path

variable {isFile isFile' : Spot → Bool}

theorem follow_eq_ok_of_follow {ground target : Ground} {names : List String}
    (h : follow isFile ground names = .ok target) : follow isFile' ground names = .ok target := by
  induction names generalizing ground with
  | nil => exact h
  | cons name names ih =>
    rw [follow] at h ⊢
    by_cases hdot : name = "."
    · rw [if_pos hdot] at h ⊢
      exact ih h
    · rw [if_neg hdot] at h ⊢
      by_cases hdots : name = ".."
      · rw [if_pos hdots] at h ⊢
        exact ih h
      · rw [if_neg hdots] at h
        split_ifs at h

/-- The place of a file does not depend on which files there are. -/
theorem locate_eq_ok_of_locate {path : String} {spot : Spot}
    (h : locate isFile path = .ok spot) : locate isFile' path = .ok spot := by
  rw [locate] at h ⊢
  by_cases hlong : 4095 < path.utf8ByteSize
  · rw [if_pos hlong] at h
    exact absurd h (by simp)
  · rw [if_neg hlong] at h ⊢
    by_cases hempty : path.isEmpty = true
    · rw [if_pos hempty] at h
      exact absurd h (by simp)
    · rw [if_neg hempty] at h ⊢
      obtain ⟨ground, hground, hend⟩ := bind_eq_ok_iff.1 h
      exact bind_eq_ok_iff.2 ⟨ground, follow_eq_ok_of_follow hground, hend⟩

end Path

namespace Folder

variable {f g : Folder} {path content : String}

theorem putAt_eq_ok_iff :
    f.putAt path content = .ok g ↔ ∃ spot, f.locate path = .ok spot ∧ f.put spot content = g := by
  rw [putAt, bind_eq_ok_iff]
  simp only [pure_eq_ok_iff]

theorem contentAt_of_putAt (h : f.putAt path content = .ok g) :
    g.contentAt path = .ok content := by
  obtain ⟨spot, hspot, rfl⟩ := putAt_eq_ok_iff.1 h
  have hagain : (f.put spot content).locate path = .ok spot := Path.locate_eq_ok_of_locate hspot
  refine bind_eq_ok_iff.2 ⟨spot, hagain, ?_⟩
  rw [get?_put_self]

theorem get?_of_putAt (h : f.putAt path content = .ok g) {spot : Spot}
    (hspot : f.locate path ≠ .ok spot) : g.get? spot = f.get? spot := by
  obtain ⟨target, htarget, rfl⟩ := putAt_eq_ok_iff.1 h
  refine get?_put_of_ne f content fun heq => hspot ?_
  rw [heq]
  exact htarget

end Folder

end ContestInput
