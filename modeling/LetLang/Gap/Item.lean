import LetLang.Gap

/-!
# Items of a gap

What a gap may consist of, said without reading it: blanks, line comments with the line feed
that ends them, and block comments whose text does not close them early.
-/

namespace LetLang.Gap

/-- One blank or one whole comment, by what stands inside. -/
inductive Item where
  | blank (byte : Byte)
  | lineComment (inside : List Byte)
  | blockComment (inside : List Byte)
  deriving DecidableEq, Repr

namespace Item

def bytes : Item → List Byte
  | .blank byte => [byte]
  | .lineComment inside => lineOpener ++ inside ++ [Byte.lineFeed]
  | .blockComment inside => blockOpener ++ inside ++ blockCloser

/-- Whether an item is what it says: a blank is one, a line comment holds no line feed, and
the text of a block comment does not contain the closer. -/
def Valid : Item → Prop
  | .blank byte => byte.isBlank = true
  | .lineComment inside => Byte.lineFeed ∉ inside
  | .blockComment inside => ¬ blockCloser <:+: inside

end Item

def bytesOf (items : List Item) : List Byte :=
  items.flatMap Item.bytes

/-- Whether bytes are a gap: some valid items in a row. -/
def IsGap (bytes : List Byte) : Prop :=
  ∃ items : List Item, (∀ item ∈ items, item.Valid) ∧ bytesOf items = bytes

theorem isGap_nil : IsGap [] := ⟨[], by simp, rfl⟩

theorem IsGap.append {first second : List Byte} (hfirst : IsGap first) (hsecond : IsGap second) :
    IsGap (first ++ second) := by
  obtain ⟨left, hleft, rfl⟩ := hfirst
  obtain ⟨right, hright, rfl⟩ := hsecond
  refine ⟨left ++ right, ?_, by simp [bytesOf]⟩
  intro item hitem
  rcases List.mem_append.mp hitem with hitem | hitem
  · exact hleft item hitem
  · exact hright item hitem

end LetLang.Gap
