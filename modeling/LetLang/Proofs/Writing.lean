import LetLang.Files.Tree
import LetLang.Proofs.Entries

/-!
# What writing a file changes

Writing changes what is found at the place that a path leads to, and nothing else. Nothing is
written where a directory is, so every directory stays one, no new one comes up, and all paths lead
where they led before.
-/

namespace LetLang.FileTree

variable {tree before after : FileTree} {place other : Place} {path : Path} {bytes : List Byte}

/-! ## One place -/

theorem isAncestor_of_node?_ne (hplace : tree.node? place ≠ some .directory) :
    isAncestor place = false := by
  by_contra hancestor
  apply hplace
  rw [node?, if_pos (by simpa using hancestor)]

theorem node?_set_self (hplace : isAncestor place = false) (node : Node) :
    (tree.set place node).node? place = some node := by
  simp [node?, hplace, set]

theorem node?_set_of_ne (hother : other ≠ place) (node : Node) :
    (tree.set place node).node? other = tree.node? other := by
  unfold node?
  split
  · rfl
  · exact lookup_put_of_ne hother node tree.entries

/-! ## Where paths lead -/

/-- Whether a file can be written at a path: the path leads to a place, which is no directory. -/
def Writable (tree : FileTree) (path : Path) : Prop :=
  ∃ place, tree.resolve path = .ok place ∧ tree.node? place ≠ some .directory

theorem target_eq_ok_iff : tree.target path = .ok place ↔
    tree.resolve path = .ok place ∧ tree.node? place ≠ some .directory := by
  unfold target
  cases tree.resolve path with
  | error fault => simp
  | ok found =>
      dsimp only
      split
      next hdirectory =>
        simp only [reduceCtorEq, Except.ok.injEq, ne_eq, false_iff, not_and, not_not]
        rintro rfl
        exact hdirectory
      next hfree =>
        simp only [Except.ok.injEq, ne_eq, iff_self_and]
        rintro rfl
        exact hfree

theorem writable_iff : tree.Writable path ↔ ∃ place, tree.target path = .ok place := by
  simp only [Writable, target_eq_ok_iff]

/-- A path that can be followed in one tree can be followed in any other with these directories. -/
theorem follow_of_directories {first second : FileTree}
    (hdirectories : ∀ place, first.node? place = some .directory →
      second.node? place = some .directory) {start : Place} {parts : List String}
    (hfollow : first.follow start parts = .ok place) : second.follow start parts = .ok place := by
  induction parts generalizing start with
  | nil => exact hfollow
  | cons part rest ih =>
      rw [follow] at hfollow ⊢
      split at hfollow
      next hup =>
        rw [if_pos hup]
        exact ih hfollow
      next hup =>
        rw [if_neg hup]
        split at hfollow
        next => cases hfollow
        next hshort =>
          rw [if_neg hshort]
          dsimp only at hfollow ⊢
          split at hfollow
          next hlast => rwa [if_pos hlast]
          next hlast =>
            rw [if_neg hlast]
            split at hfollow
            next hdirectory =>
              rw [hdirectories _ hdirectory]
              exact ih hfollow
            next => cases hfollow
            next => cases hfollow

/-- Trees with the same directories lead a path to the same place. -/
theorem resolve_eq_ok_iff_of_directories {first second : FileTree}
    (hdirectories : ∀ place, first.node? place = some .directory ↔
      second.node? place = some .directory) (path : Path) :
    first.resolve path = .ok place ↔ second.resolve path = .ok place := by
  unfold resolve
  split
  · simp
  · exact ⟨follow_of_directories fun place => (hdirectories place).mp,
      follow_of_directories fun place => (hdirectories place).mpr⟩

theorem read_eq_ok_iff : tree.read path = .ok bytes ↔
    ∃ place, tree.resolve path = .ok place ∧ tree.node? place = some (.file bytes) := by
  unfold read find
  cases tree.resolve path with
  | error fault => simp
  | ok place =>
      simp only [Except.ok.injEq, exists_eq_left']
      cases tree.node? place with
      | none => simp
      | some node => cases node <;> simp

/-! ## What a write leaves -/

/-- Whether a tree holds some bytes at a path and is as another one everywhere else: at every other
place the same is found, and the same bytes are read under every path that leads elsewhere. -/
structure Written (before after : FileTree) (path : Path) (bytes : List Byte) : Prop where
  holds : after.read path = .ok bytes
  elsewhere : ∀ place, before.resolve path ≠ .ok place → after.node? place = before.node? place
  others : ∀ (other : Path) (content : List Byte), before.resolve other ≠ before.resolve path →
    (after.read other = .ok content ↔ before.read other = .ok content)

theorem written_of_target {target : Place} (hfound : before.target path = .ok target)
    (bytes : List Byte) : before.Written (before.set target (.file bytes)) path bytes := by
  obtain ⟨hresolve, htarget⟩ := target_eq_ok_iff.mp hfound
  have hfile : (before.set target (.file bytes)).node? target = some (.file bytes) :=
    node?_set_self (isAncestor_of_node?_ne htarget) _
  have hdirectories (place : Place) : before.node? place = some .directory ↔
      (before.set target (.file bytes)).node? place = some .directory := by
    by_cases hplace : place = target
    · rw [hplace, hfile]
      simp [htarget]
    · rw [node?_set_of_ne hplace]
  refine ⟨?_, ?_, ?_⟩
  · exact read_eq_ok_iff.mpr
      ⟨target, (resolve_eq_ok_iff_of_directories hdirectories path).mp hresolve, hfile⟩
  · intro place hplace
    apply node?_set_of_ne
    rintro rfl
    exact hplace hresolve
  · intro other content hother
    rw [read_eq_ok_iff, read_eq_ok_iff]
    -- both trees lead the other path to one place, which is not the one written to
    apply exists_congr
    intro place
    rw [← resolve_eq_ok_iff_of_directories hdirectories other]
    apply and_congr_right
    intro hplace
    rw [node?_set_of_ne]
    rintro rfl
    exact hother (hplace.trans hresolve.symm)

end LetLang.FileTree
