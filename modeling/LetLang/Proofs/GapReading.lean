import LetLang.Gap.Item
import LetLang.Proofs.ByteClasses

/-!
# Reading a gap is taking whole items

The reader of gaps looks at one front at a time, and a gap is some valid items in a row. The
two agree: items in front of a text are taken from it whatever follows them, and what the
reader takes is made of items. Only a text that ends inside a line comment leaves more than
items before its end.
-/

namespace LetLang.Gap

/-- The bytes of a line comment that the text ends in. -/
def IsOpenComment (bytes : List Byte) : Prop :=
  ∃ inside, Byte.lineFeed ∉ inside ∧ bytes = lineOpener ++ inside

/-- What may stand before the end of a text: a gap, and a last line comment without its line
feed. -/
def IsFinalGap (bytes : List Byte) : Prop :=
  IsGap bytes ∨ ∃ gap comment, IsGap gap ∧ IsOpenComment comment ∧ bytes = gap ++ comment

/-- A block comment that opens and never closes. -/
def IsUnclosed (bytes : List Byte) : Prop :=
  ∃ inside, ¬ blockCloser <:+: inside ∧ bytes = blockOpener ++ inside

instance : DecidablePred Item.Valid
  | .blank _ => inferInstanceAs (Decidable (_ = _))
  | .lineComment _ => inferInstanceAs (Decidable (_ ∉ _))
  | .blockComment _ => inferInstanceAs (Decidable (¬ _ <:+: _))

/-- A text in which a block comment that never closes comes before any token. -/
def EndsUnclosed (text : List Byte) : Prop :=
  ∃ gap comment, IsGap gap ∧ IsUnclosed comment ∧ text = gap ++ comment

/-! ## The first byte of a gap -/

theorem head_of_isGap {byte : Byte} {gap : List Byte} (hgap : IsGap (byte :: gap)) :
    byte.isBlank = true ∨ byte = Byte.slash := by
  obtain ⟨items, hitems, hbytes⟩ := hgap
  cases items with
  | nil => cases hbytes
  | cons item items =>
      have hitem := hitems item List.mem_cons_self
      cases item with
      | blank first =>
          obtain ⟨rfl, _⟩ := List.cons.inj hbytes
          exact Or.inl hitem
      | lineComment inside =>
          obtain ⟨rfl, _⟩ := List.cons.inj hbytes
          exact Or.inr rfl
      | blockComment inside =>
          obtain ⟨rfl, _⟩ := List.cons.inj hbytes
          exact Or.inr rfl

theorem head_of_isFinalGap {byte : Byte} {gap : List Byte} (hgap : IsFinalGap (byte :: gap)) :
    byte.isBlank = true ∨ byte = Byte.slash := by
  rcases hgap with hgap | ⟨front, comment, hfront, ⟨inside, _, rfl⟩, hbytes⟩
  · exact head_of_isGap hgap
  · cases front with
    | nil =>
        obtain ⟨rfl, _⟩ := List.cons.inj hbytes
        exact Or.inr rfl
    | cons first front =>
        obtain ⟨rfl, _⟩ := List.cons.inj hbytes
        exact head_of_isGap hfront

theorem not_continuesWord_of_head {byte : Byte} (hbyte : byte.isBlank = true ∨ byte = Byte.slash) :
    byte.continuesWord = false := by
  rcases hbyte with hblank | rfl
  · exact Byte.continuesWord_of_isBlank hblank
  · decide

/-! ## The closer of a block comment -/

theorem blockCloser_prefix_cons {byte : Byte} {rest : List Byte} :
    blockCloser <+: byte :: rest ↔ byte = Byte.star ∧ rest.head? = some Byte.slash := by
  cases rest with
  | nil => simp [blockCloser, List.cons_prefix_cons]
  | cons next rest => simp [blockCloser, List.cons_prefix_cons, eq_comm]

theorem not_blockCloser_infix_cons {byte : Byte} {rest : List Byte} :
    ¬ blockCloser <:+: byte :: rest ↔
      ¬ (byte = Byte.star ∧ rest.head? = some Byte.slash) ∧ ¬ blockCloser <:+: rest := by
  rw [List.infix_cons_iff, blockCloser_prefix_cons, not_or]

/-- The first closer after an opener is the one that the reader splits at. -/
theorem throughCloser?_append {inside : List Byte} (hinside : ¬ blockCloser <:+: inside)
    (rest : List Byte) :
    throughCloser? (inside ++ blockCloser ++ rest) = some (inside ++ blockCloser, rest) := by
  induction inside with
  | nil => simp [blockCloser, throughCloser?]
  | cons byte inside ih =>
      obtain ⟨hfirst, hlater⟩ := not_blockCloser_infix_cons.mp hinside
      have hhead : ¬ (byte = Byte.star ∧
          (inside ++ blockCloser ++ rest).head? = some Byte.slash) := by
        rintro ⟨hstar, hslash⟩
        apply hfirst
        refine ⟨hstar, ?_⟩
        -- after the last byte inside comes a star and no slash
        cases inside with
        | nil => exact absurd (Option.some.inj hslash) (by decide)
        | cons next inside => exact hslash
      simp only [List.cons_append, throughCloser?, hhead, if_false, ih hlater, Option.map_some]

theorem throughCloser?_eq_none_iff {text : List Byte} :
    throughCloser? text = none ↔ ¬ blockCloser <:+: text := by
  induction text with
  | nil => simp [throughCloser?, blockCloser]
  | cons byte rest ih =>
      rw [not_blockCloser_infix_cons, throughCloser?]
      split
      next hcloser => simp [hcloser]
      next hcloser => simp [hcloser, ih]

/-- What the reader splits off is a text without a closer, and the closer. -/
theorem exists_inside_of_throughCloser? {text inside after : List Byte}
    (hsplit : throughCloser? text = some (inside, after)) :
    ∃ body, ¬ blockCloser <:+: body ∧ inside = body ++ blockCloser := by
  induction text generalizing inside with
  | nil => simp [throughCloser?] at hsplit
  | cons byte rest ih =>
      unfold throughCloser? at hsplit
      split at hsplit
      next =>
        obtain ⟨rfl, rfl⟩ := Prod.mk.inj (Option.some.inj hsplit)
        exact ⟨[], by decide, rfl⟩
      next hcloser =>
        obtain ⟨⟨later, left⟩, hlater, heq⟩ := Option.map_eq_some_iff.mp hsplit
        obtain ⟨rfl, rfl⟩ := Prod.mk.inj heq
        obtain ⟨body, hbody, rfl⟩ := ih hlater
        refine ⟨byte :: body, not_blockCloser_infix_cons.mpr ⟨?_, hbody⟩, rfl⟩
        rintro ⟨hstar, hslash⟩
        apply hcloser
        refine ⟨hstar, ?_⟩
        -- the byte after the star is the same in the body and in the text
        rw [← (throughCloser?_eq_some hlater).1]
        cases body with
        | nil => simp at hslash
        | cons next body => exact hslash

/-! ## The front of a text -/

theorem front_blank {byte : Byte} (hblank : byte.isBlank = true) (rest : List Byte) :
    front (byte :: rest) = .piece [byte] rest := by
  simp [front, hblank]

theorem front_lineOpener_append {inside : List Byte} (rest : List Byte)
    (hinside : Byte.lineFeed ∉ inside)
    (hrest : ∀ byte ∈ rest.head?, byte = Byte.lineFeed) :
    front (lineOpener ++ inside ++ rest) = .piece (lineOpener ++ inside) rest := by
  have hbytes : ∀ byte ∈ Byte.slash :: inside, (byte != Byte.lineFeed) = true := by
    intro byte hbyte
    rcases List.mem_cons.mp hbyte with rfl | hbyte
    · decide
    · exact bne_iff_ne.mpr (ne_of_mem_of_not_mem hbyte hinside)
  have hstop : ∀ byte ∈ rest.head?, (byte != Byte.lineFeed) = false := by
    intro byte hbyte
    simp [hrest byte hbyte]
  obtain ⟨htake, hdrop⟩ := takeWhile_append_of_stop rest hbytes hstop
  simp only [lineOpener, List.cons_append, List.nil_append] at htake hdrop ⊢
  simp [front, htake, hdrop]

theorem front_blockOpener_append {inside : List Byte} (hinside : ¬ blockCloser <:+: inside)
    (rest : List Byte) :
    front (blockOpener ++ inside ++ blockCloser ++ rest) =
      .piece (blockOpener ++ inside ++ blockCloser) rest := by
  have hsplit := throughCloser?_append hinside rest
  simp only [List.append_assoc] at hsplit
  simp [front, blockOpener, hsplit]

theorem front_of_isUnclosed {comment : List Byte} (hcomment : IsUnclosed comment) :
    front comment = .unclosed := by
  obtain ⟨inside, hinside, rfl⟩ := hcomment
  have hsplit := throughCloser?_eq_none_iff.mpr hinside
  simp [front, blockOpener, hsplit]

theorem front_cons_eq_clear_iff {byte : Byte} {rest : List Byte} :
    front (byte :: rest) = .clear ↔ byte.isBlank = false ∧
      (byte = Byte.slash → ∀ next ∈ rest.head?, next ≠ Byte.slash ∧ next ≠ Byte.star) := by
  rw [front]
  split
  next hblank => simp [hblank]
  next hblank =>
    split
    next hopener => simp [hopener.1, hopener.2]
    next hline =>
      split
      next hopener =>
        cases hsplit : throughCloser? rest.tail <;> simp [hopener.1, hopener.2]
      next hblock =>
        simp only [true_iff]
        refine ⟨by simpa using hblank, ?_⟩
        intro hslash next hnext
        have hhead : rest.head? = some next := hnext
        simp only [hslash, hhead, true_and, Option.some.injEq] at hline hblock
        exact ⟨hline, hblock⟩

theorem front_of_continuesWord {byte : Byte} (hword : byte.continuesWord = true)
    (rest : List Byte) : front (byte :: rest) = .clear :=
  front_cons_eq_clear_iff.mpr ⟨Byte.isBlank_of_continuesWord hword,
    fun hslash => absurd hslash (Byte.ne_slash_of_continuesWord hword)⟩

/-! ## Reading on -/

@[simp]
theorem prepend_nil (gap : Gap) : gap.prepend [] = gap := by
  cases gap <;> rfl

@[simp]
theorem prepend_prepend (gap : Gap) (first second : List Byte) :
    (gap.prepend second).prepend first = gap.prepend (first ++ second) := by
  cases gap <;> simp [prepend]

theorem read_of_piece {text span rest : List Byte} (hfront : front text = .piece span rest) :
    read text = (read rest).prepend span := by
  rw [read]
  split
  next hother => simp [hfront] at hother
  next hother => simp [hfront] at hother
  next hother =>
    rw [hfront] at hother
    obtain ⟨rfl, rfl⟩ := Front.piece.inj hother
    rfl

theorem read_of_clear {text : List Byte} (hfront : front text = .clear) :
    read text = .clear [] text := by
  rw [read]
  split
  next => rfl
  next hother => simp [hfront] at hother
  next hother => simp [hfront] at hother

theorem read_of_unclosed {text : List Byte} (hfront : front text = .unclosed) :
    read text = .unclosed [] text := by
  rw [read]
  split
  next hother => simp [hfront] at hother
  next => rfl
  next hother => simp [hfront] at hother

theorem read_of_isUnclosed {comment : List Byte} (hcomment : IsUnclosed comment) :
    read comment = .unclosed [] comment := read_of_unclosed (front_of_isUnclosed hcomment)

theorem read_of_isOpenComment {comment : List Byte} (hcomment : IsOpenComment comment) :
    read comment = .clear comment [] := by
  obtain ⟨inside, hinside, rfl⟩ := hcomment
  have hfront := front_lineOpener_append [] hinside (by simp)
  rw [List.append_nil] at hfront
  rw [read_of_piece hfront, read_of_clear (by rfl)]
  simp [prepend]

theorem isGap_of_item {item : Item} (hitem : item.Valid) : IsGap item.bytes :=
  ⟨[item], by simpa using hitem, by simp [bytesOf]⟩

/-- A valid item in front of a text is a gap with the text after it. -/
theorem read_item_append {item : Item} (hitem : item.Valid) (rest : List Byte) :
    read (item.bytes ++ rest) = (read rest).prepend item.bytes := by
  cases item with
  | blank byte => rw [Item.bytes, List.singleton_append, read_of_piece (front_blank hitem rest)]
  | lineComment inside =>
      have hfront := front_lineOpener_append (Byte.lineFeed :: rest) hitem (by simp)
      have hblank := read_of_piece (front_blank Byte.isBlank_lineFeed rest)
      rw [Item.bytes, List.append_assoc, List.singleton_append, read_of_piece hfront, hblank,
        prepend_prepend]
  | blockComment inside =>
      rw [Item.bytes, read_of_piece (front_blockOpener_append hitem rest)]

theorem Item.bytes_ne_nil (item : Item) : item.bytes ≠ [] := by
  cases item <;> simp [Item.bytes, lineOpener, blockOpener]

theorem lineComment_cases (rest : List Byte) :
    IsOpenComment (Byte.slash :: Byte.slash :: rest) ∨
      ∃ (item : Item) (after : List Byte), item.Valid ∧
        Byte.slash :: Byte.slash :: rest = item.bytes ++ after := by
  by_cases hfeed : Byte.lineFeed ∈ rest
  · obtain ⟨inside, after, rfl, hinside⟩ := List.eq_append_cons_of_mem hfeed
    exact Or.inr ⟨.lineComment inside, after, hinside, by simp [Item.bytes, lineOpener]⟩
  · exact Or.inl ⟨rest, hfeed, rfl⟩

/-- At the front of a text stands a token or the end, an item, or a comment that runs to the
end of the text. -/
theorem front_cases (text : List Byte) :
    front text = .clear ∨ IsUnclosed text ∨ IsOpenComment text ∨
      ∃ (item : Item) (rest : List Byte), item.Valid ∧ text = item.bytes ++ rest := by
  cases text with
  | nil => exact Or.inl rfl
  | cons byte rest =>
      by_cases hblank : byte.isBlank = true
      · exact Or.inr (Or.inr (Or.inr ⟨.blank byte, rest, hblank, rfl⟩))
      -- a slash opens a comment only with the right byte after it
      by_cases hline : byte = Byte.slash ∧ rest.head? = some Byte.slash
      · obtain ⟨rfl, hslash⟩ := hline
        obtain ⟨rest, rfl⟩ := List.head?_eq_some_iff.mp hslash
        right; right
        exact lineComment_cases rest
      by_cases hblock : byte = Byte.slash ∧ rest.head? = some Byte.star
      · obtain ⟨rfl, hstar⟩ := hblock
        obtain ⟨rest, rfl⟩ := List.head?_eq_some_iff.mp hstar
        right
        cases hsplit : throughCloser? rest with
        | none => exact Or.inl ⟨rest, throughCloser?_eq_none_iff.mp hsplit, rfl⟩
        | some split =>
            obtain ⟨body, hbody, hinside⟩ := exists_inside_of_throughCloser? hsplit
            have htext := (throughCloser?_eq_some hsplit).1
            refine Or.inr (Or.inr ⟨.blockComment body, split.2, hbody, ?_⟩)
            simp [Item.bytes, blockOpener, ← htext, hinside]
      · left
        rw [front, if_neg hblank, if_neg hline, if_neg hblock]

/-- What is proved for tokens, the end and comments that run to the end, and carried over every
item in front, holds for every text. -/
theorem text_induction {motive : List Byte → Prop}
    (clear : ∀ text, front text = .clear → motive text)
    (unclosed : ∀ text, IsUnclosed text → motive text)
    (openComment : ∀ text, IsOpenComment text → motive text)
    (item : ∀ (item : Item) (rest : List Byte), item.Valid → motive rest →
      motive (item.bytes ++ rest))
    (text : List Byte) : motive text := by
  rcases front_cases text with htext | htext | htext | ⟨first, rest, hfirst, htext⟩
  · exact clear text htext
  · exact unclosed text htext
  · exact openComment text htext
  · have hlength : rest.length < text.length := by
      have := List.length_pos_iff.mpr first.bytes_ne_nil
      rw [htext, List.length_append]
      omega
    rw [htext]
    exact item first rest hfirst (text_induction clear unclosed openComment item rest)
termination_by text.length

/-- A gap in front of a text is taken whole, whatever follows it. -/
theorem read_append {gap : List Byte} (hgap : IsGap gap) (rest : List Byte) :
    read (gap ++ rest) = (read rest).prepend gap := by
  obtain ⟨items, hitems, rfl⟩ := hgap
  induction items with
  | nil => simp [bytesOf, prepend_nil]
  | cons item items ih =>
      obtain ⟨hitem, hitems⟩ := List.forall_mem_cons.mp hitems
      simp only [bytesOf, List.flatMap_cons, List.append_assoc] at ih ⊢
      rw [read_item_append hitem, ih hitems, prepend_prepend]

/-- The reader takes the longest gap: what it leaves is the end, a token, or a comment that
runs to the end of the text. A line comment that does so is taken as well. -/
theorem read_cases (text : List Byte) :
    ∃ gap rest, IsGap gap ∧ text = gap ++ rest ∧
      (front rest = .clear ∧ read text = .clear gap rest ∨
        IsUnclosed rest ∧ read text = .unclosed gap rest ∨
        IsOpenComment rest ∧ read text = .clear text []) := by
  induction text using text_induction with
  | clear text hfront => exact ⟨[], text, isGap_nil, rfl, Or.inl ⟨hfront, read_of_clear hfront⟩⟩
  | unclosed text htext =>
      exact ⟨[], text, isGap_nil, rfl, Or.inr (Or.inl ⟨htext, read_of_isUnclosed htext⟩)⟩
  | openComment text htext =>
      exact ⟨[], text, isGap_nil, rfl, Or.inr (Or.inr ⟨htext, read_of_isOpenComment htext⟩)⟩
  | item item rest hitem ih =>
      obtain ⟨gap, left, hgap, rfl, hleft⟩ := ih
      refine ⟨item.bytes ++ gap, left, (isGap_of_item hitem).append hgap, by simp, ?_⟩
      rw [read_item_append hitem]
      rcases hleft with ⟨hleft, hread⟩ | ⟨hleft, hread⟩ | ⟨hleft, hread⟩
      · exact Or.inl ⟨hleft, by rw [hread, prepend]⟩
      · exact Or.inr (Or.inl ⟨hleft, by rw [hread, prepend]⟩)
      · exact Or.inr (Or.inr ⟨hleft, by rw [hread, prepend]⟩)

theorem read_of_isFinalGap {gap : List Byte} (hgap : IsFinalGap gap) :
    read gap = .clear gap [] := by
  rcases hgap with hgap | ⟨front, comment, hfront, hcomment, rfl⟩
  · have hread := read_append hgap []
    have hend : read [] = .clear [] [] := read_of_clear rfl
    rw [List.append_nil, hend, prepend, List.append_nil] at hread
    exact hread
  · rw [read_append hfront, read_of_isOpenComment hcomment, prepend]

/-- Reading fails exactly where a gap and a block comment that never closes make up the text. -/
theorem read_eq_unclosed_iff {text span comment : List Byte} :
    read text = .unclosed span comment ↔
      IsGap span ∧ IsUnclosed comment ∧ text = span ++ comment := by
  constructor
  · intro hread
    obtain ⟨gap, left, hgap, htext, hleft⟩ := read_cases text
    rcases hleft with ⟨_, hother⟩ | ⟨hleft, hother⟩ | ⟨_, hother⟩ <;> rw [hread] at hother
    · cases hother
    · obtain ⟨rfl, rfl⟩ := Gap.unclosed.inj hother
      exact ⟨hgap, hleft, htext⟩
    · cases hother
  · rintro ⟨hspan, hcomment, rfl⟩
    rw [read_append hspan, read_of_isUnclosed hcomment, prepend, List.append_nil]

end LetLang.Gap
