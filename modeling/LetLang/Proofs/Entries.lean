import Mathlib.Data.List.Basic

/-!
# Entries under keys

A list of entries is looked up by key, and the first entry under a key counts. Taking out the
entries under one key, or putting one in front of the others, leaves all other keys alone.
-/

namespace LetLang

variable {α β : Type} [BEq α] [LawfulBEq α] {key other : α}

theorem lookup_filter_of_ne (hother : other ≠ key) (entries : List (α × β)) :
    (entries.filter (·.1 != key)).lookup other = entries.lookup other := by
  induction entries with
  | nil => rfl
  | cons entry entries ih =>
      by_cases hentry : entry.1 = key
      · have hkey : (other == entry.1) = false := by simpa [hentry] using hother
        rw [List.filter_cons_of_neg (by simp [hentry]), ih, List.lookup_cons, hkey]
      · rw [List.filter_cons_of_pos (by simpa using hentry), List.lookup_cons, List.lookup_cons, ih]

/-- A new entry in place of those under its key leaves all other keys alone. -/
theorem lookup_put_of_ne (hother : other ≠ key) (value : β) (entries : List (α × β)) :
    ((key, value) :: entries.filter (·.1 != key)).lookup other = entries.lookup other := by
  have hkey : (other == key) = false := by simpa using hother
  rw [List.lookup_cons, hkey]
  exact lookup_filter_of_ne hother entries

end LetLang
