import LetLang.Proofs.Progress

/-!
# Skipping gaps

Before a token is read, the gap in front of it is skipped. The first two bytes of an item tell what
it is, and it ends at the first place where it can, so a gap is cut into items in one way only. A
skip that comes to an end takes items as long as there are any, wherever in the gap it starts. Only
at the end of the text may the last of them be a line comment without its line feed.
-/

namespace LetLang

namespace Gap

/-! ## One way to cut -/

namespace Item

/-- What the reader takes of an item at once: all but the line feed of a line comment. -/
def piece : Item → List Byte
  | .blank byte => [byte]
  | .lineComment inside => lineOpener ++ inside
  | .blockComment inside => blockOpener ++ inside ++ blockCloser

/-- What is left of the item then. -/
def closing : Item → List Byte
  | .lineComment _ => [Byte.lineFeed]
  | _ => []

theorem piece_injective : Function.Injective piece := by
  intro first second heq
  cases first <;> cases second <;>
    simp_all [piece, lineOpener, blockOpener, Byte.slash, Byte.star]

theorem front_append {item : Item} (hitem : item.Valid) (rest : List Byte) :
    front (item.bytes ++ rest) = .piece item.piece (item.closing ++ rest) := by
  cases item with
  | blank byte => exact front_blank hitem rest
  | lineComment inside =>
      rw [bytes, List.append_assoc]
      exact front_lineOpener_append (Byte.lineFeed :: rest) hitem (by simp)
  | blockComment inside => exact front_blockOpener_append hitem rest

/-- No item is the start of another one. -/
theorem append_inj {first second : Item} (hfirst : first.Valid) (hsecond : second.Valid)
    {left right : List Byte} (heq : first.bytes ++ left = second.bytes ++ right) :
    first = second ∧ left = right := by
  have hfront := congrArg front heq
  rw [front_append hfirst, front_append hsecond] at hfront
  obtain rfl := piece_injective (Front.piece.inj hfront).1
  exact ⟨rfl, List.append_cancel_left heq⟩

/-- A line comment that the end of the text cuts off does not start with an item. -/
theorem append_ne_of_isOpenComment {item : Item} {comment : List Byte} (hitem : item.Valid)
    (hcomment : IsOpenComment comment) (rest : List Byte) : item.bytes ++ rest ≠ comment := by
  obtain ⟨inside, hinside, rfl⟩ := hcomment
  intro heq
  have hopen := front_lineOpener_append [] hinside (by simp)
  have hfront := congrArg front heq
  rw [List.append_nil] at hopen
  rw [front_append hitem, hopen] at hfront
  obtain ⟨hpiece, hrest⟩ := Front.piece.inj hfront
  -- only a line comment looks like this, and it would have left its line feed
  obtain rfl : item = .lineComment inside := piece_injective hpiece
  cases hrest

end Item

/-- A gap cut into items. The end of the text may cut off one more line comment. -/
structure Cut where
  items : List Item
  /-- What stands inside the line comment that is cut off. -/
  last : Option (List Byte)
  deriving DecidableEq, Repr

namespace Cut

def bytes (cut : Cut) : List Byte :=
  bytesOf cut.items ++ (cut.last.map (lineOpener ++ ·)).getD []

/-- Whether all items are what they say, and the comment that is cut off holds no line feed. -/
structure Valid (cut : Cut) : Prop where
  items : ∀ item ∈ cut.items, item.Valid
  last : ∀ inside ∈ cut.last, Byte.lineFeed ∉ inside

variable {first second : Cut}

theorem bytes_cons (item : Item) (items : List Item) (last : Option (List Byte)) :
    (⟨item :: items, last⟩ : Cut).bytes = item.bytes ++ (⟨items, last⟩ : Cut).bytes := by
  simp [bytes, bytesOf]

theorem valid_cons_iff {item : Item} {items : List Item} {last : Option (List Byte)} :
    (⟨item :: items, last⟩ : Cut).Valid ↔ item.Valid ∧ (⟨items, last⟩ : Cut).Valid := by
  constructor
  · rintro ⟨hitems, hlast⟩
    obtain ⟨hitem, hitems⟩ := List.forall_mem_cons.mp hitems
    exact ⟨hitem, hitems, hlast⟩
  · rintro ⟨hitem, hitems, hlast⟩
    exact ⟨List.forall_mem_cons.mpr ⟨hitem, hitems⟩, hlast⟩

/-- What is left when there are no more items does not start with one. -/
theorem bytes_ne_of_nil {item : Item} {last : Option (List Byte)} (hitem : item.Valid)
    (hlast : (⟨[], last⟩ : Cut).Valid) (rest : List Byte) :
    item.bytes ++ rest ≠ (⟨[], last⟩ : Cut).bytes := by
  cases last with
  | none => exact fun heq => item.bytes_ne_nil (List.append_eq_nil_iff.mp heq).1
  | some inside =>
      exact Item.append_ne_of_isOpenComment hitem ⟨inside, hlast.last inside rfl, rfl⟩ rest

/-- A gap is cut in one way only. -/
theorem eq_of_bytes_eq (hfirst : first.Valid) (hsecond : second.Valid)
    (heq : first.bytes = second.bytes) : first = second := by
  obtain ⟨items, last⟩ := first
  obtain ⟨others, final⟩ := second
  induction items generalizing others with
  | nil =>
      cases others with
      | nil =>
          rcases last with _ | inside <;> rcases final with _ | other
          · rfl
          · cases heq
          · cases heq
          · have hinside : lineOpener ++ inside = lineOpener ++ other := heq
            rw [List.append_cancel_left hinside]
      | cons other others =>
          obtain ⟨hother, _⟩ := valid_cons_iff.mp hsecond
          rw [bytes_cons] at heq
          exact absurd heq.symm (bytes_ne_of_nil hother hfirst _)
  | cons item items ih =>
      obtain ⟨hitem, hitems⟩ := valid_cons_iff.mp hfirst
      rw [bytes_cons] at heq
      cases others with
      | nil => exact absurd heq (bytes_ne_of_nil hitem hsecond _)
      | cons other others =>
          obtain ⟨hother, hothers⟩ := valid_cons_iff.mp hsecond
          rw [bytes_cons] at heq
          obtain ⟨rfl, hrest⟩ := Item.append_inj hitem hother heq
          obtain ⟨rfl, rfl⟩ := Cut.mk.inj (ih hitems others hothers hrest)
          rfl

/-- What the reader takes before a token or the end can be cut. -/
theorem exists_of_read {text span rest : List Byte} (hread : read text = .clear span rest) :
    ∃ cut : Cut, cut.Valid ∧ cut.bytes = span ∧ (cut.last ≠ none → rest = []) ∧
      front rest = .clear ∧ text = span ++ rest := by
  obtain ⟨gap, left, ⟨items, hitems, hbytes⟩, htext, hleft⟩ := read_cases text
  rcases hleft with ⟨hclear, hother⟩ | ⟨_, hother⟩ | ⟨⟨inside, hinside, rfl⟩, hother⟩ <;>
    rw [hread] at hother
  · obtain ⟨rfl, rfl⟩ := Gap.clear.inj hother
    exact ⟨⟨items, none⟩, ⟨hitems, by simp⟩, by simpa [bytes] using hbytes, by simp, hclear, htext⟩
  · cases hother
  · obtain ⟨rfl, rfl⟩ := Gap.clear.inj hother
    refine ⟨⟨items, some inside⟩, ⟨hitems, by simpa using hinside⟩, ?_, fun _ => rfl, rfl,
      (List.append_nil _).symm⟩
    rw [htext, ← hbytes]
    rfl

end Cut

end Gap

/-! ## Places of a source -/

/-- The bytes of a source between two offsets. -/
def Source.between (source : Source) (first last : Nat) : List Byte :=
  (source.bytes.take last).drop first

theorem Source.text_eq_take (source : Source) : source.text = source.bytes.take source.stop := by
  rw [← source.length_text]
  exact List.prefix_iff_eq_take.mp (List.takeWhile_prefix _)

namespace Scanner

namespace Reachable

variable {source : Source} {encoding : Decoder} {scanner : Scanner}

/-- What is left from the position on, before and after some bytes of it. -/
theorem between_eq (hreached : Reachable source encoding scanner) {span rest : List Byte}
    (hrest : scanner.rest = span ++ rest) :
    source.between scanner.position.offset (scanner.position.offset + span.length) = span ∧
      source.between (scanner.position.offset + span.length) source.stop = rest := by
  obtain ⟨_, before, htext, hposition⟩ := hreached.exists_before
  rw [hrest, ← List.append_assoc] at htext
  have hbytes := source.text_append
  rw [htext, List.append_assoc] at hbytes
  rw [hposition, Position.offset_through_start, ← List.length_append]
  constructor
  · rw [Source.between, hbytes, List.take_left, List.drop_left]
  · rw [Source.between, ← source.text_eq_take, htext, List.drop_left]

theorem rest_eq_between (hreached : Reachable source encoding scanner) :
    scanner.rest = source.between scanner.position.offset source.stop :=
  (hreached.between_eq (List.nil_append scanner.rest).symm).2.symm

end Reachable

/-! ## Skipping -/

theorem exists_read_of_skip {scanner after : Scanner} (hskip : scanner.skip = (after, .ok ())) :
    ∃ span rest, Gap.read scanner.rest = .clear span rest ∧ after = scanner.move span rest := by
  rw [skip] at hskip
  cases hread : Gap.read scanner.rest with
  | clear span rest =>
      rw [hread] at hskip
      exact ⟨span, rest, rfl, (Prod.mk.inj hskip).1.symm⟩
  | unclosed span comment =>
      rw [hread] at hskip
      cases (Prod.mk.inj hskip).2

/-- Before a token or the end there is nothing to skip. -/
theorem skip_of_clear {scanner : Scanner} (hclear : Gap.front scanner.rest = .clear) :
    scanner.skip = (scanner, .ok ()) := by
  rw [skip, Gap.read_of_clear hclear]
  rfl

theorem advance_eq_move {scanner : Scanner} {span rest : List Byte}
    (hrest : scanner.rest = span ++ rest) :
    scanner.advance span.length = scanner.move span rest := by
  rw [advance, hrest, List.take_left, List.drop_left]

/-- No gap in front of the text is longer than the one that is taken. -/
theorem isPrefix_of_read {gap text span rest : List Byte} (hgap : Gap.IsGap gap)
    (hstarts : gap <+: text) (hread : Gap.read text = .clear span rest) : gap <+: span := by
  obtain ⟨later, rfl⟩ := hstarts
  rw [Gap.read_append hgap] at hread
  cases hlater : Gap.read later with
  | clear inner left =>
      rw [hlater] at hread
      obtain ⟨rfl, _⟩ := Gap.clear.inj hread
      exact List.prefix_append gap inner
  | unclosed inner comment =>
      rw [hlater] at hread
      cases hread

/-- **A skip takes the longest gap.** Wherever draws have led, a skip that comes to an end leaves
the scanner where the next token is read, and there is the stop or a byte that no gap goes on with.
The bytes that it has passed can be cut into items in one way, where only the stop may cut off the
last one, and every gap that starts at the position is among them. Skipping once more changes
nothing, and a skip from behind any number of the items comes to the same end, with the same line
and column. -/
theorem skip_takes_longest {source : Source} {encoding : Decoder} {scanner after : Scanner}
    (hreached : Reachable source encoding scanner) (hskip : scanner.skip = (after, .ok ())) :
    let first := scanner.position.offset
    let last := after.position.offset
    scanner.next = after.token ∧ first ≤ last ∧ last ≤ source.stop ∧
    (last = source.stop ∨ ∃ byte rest, source.between last source.stop = byte :: rest ∧
      byte.isBlank = false ∧
      (byte = Byte.slash → ∀ next ∈ rest.head?, next ≠ Byte.slash ∧ next ≠ Byte.star)) ∧
    (∀ gap, Gap.IsGap gap → gap <+: source.between first source.stop →
      gap <+: source.between first last) ∧
    after.skip = (after, .ok ()) ∧
    ∃ cut : Gap.Cut, cut.Valid ∧ cut.bytes = source.between first last ∧
      (∀ other : Gap.Cut, other.Valid → other.bytes = source.between first last → other = cut) ∧
      (cut.last ≠ none → last = source.stop) ∧
      scanner.advance cut.bytes.length = after ∧
      ∀ count, (scanner.advance (Gap.bytesOf (cut.items.take count)).length).skip =
        (after, .ok ()) := by
  intro first last
  obtain ⟨span, rest, hread, rfl⟩ := exists_read_of_skip hskip
  obtain ⟨cut, hvalid, rfl, hlast, hclear, hrest⟩ := Gap.Cut.exists_of_read hread
  obtain ⟨hpassed, hleft⟩ := hreached.between_eq hrest
  have hoffset : last = first + cut.bytes.length := Position.offset_through ..
  have hstop := hreached.offset_add_length
  rw [hrest, List.length_append] at hstop
  rw [← hoffset] at hpassed hleft
  have hend : rest = [] → last = source.stop := by
    rintro rfl
    rw [hoffset, ← hstop]
    rfl
  refine ⟨?_, by omega, by omega, ?_, ?_, skip_of_clear hclear, cut, hvalid, hpassed.symm, ?_,
    fun hcut => hend (hlast hcut), advance_eq_move hrest, ?_⟩
  · rw [next, hskip]
  · cases rest with
    | nil => exact Or.inl (hend rfl)
    | cons byte rest => exact Or.inr ⟨byte, rest, hleft, Gap.front_cons_eq_clear_iff.mp hclear⟩
  · intro gap hgap hstarts
    rw [← hreached.rest_eq_between] at hstarts
    rw [hpassed]
    exact isPrefix_of_read hgap hstarts hread
  · intro other hother hbytes
    exact Gap.Cut.eq_of_bytes_eq hother hvalid (hbytes.trans hpassed)
  · intro count
    -- the items that are passed first are a gap of their own
    have hgap : Gap.IsGap (Gap.bytesOf (cut.items.take count)) :=
      ⟨_, fun item hitem => hvalid.items item (List.mem_of_mem_take hitem), rfl⟩
    have hsplit : scanner.rest = Gap.bytesOf (cut.items.take count) ++
        ((⟨cut.items.drop count, cut.last⟩ : Gap.Cut).bytes ++ rest) := by
      rw [hrest, Gap.Cut.bytes, Gap.Cut.bytes, Gap.bytesOf, Gap.bytesOf, Gap.bytesOf,
        ← List.append_assoc, ← List.append_assoc, ← List.flatMap_append, List.take_append_drop]
    rw [advance_eq_move hsplit, skip_of_gap hgap hsplit, hskip]

/-- Openers and closers that overlap, and a line comment that a NUL byte cuts off. -/
theorem skip_takes_longest_cut_comment :
    let source : Source := ⟨"cut", [0x61, 0x2F, 0x2A, 0x2F, 0x2A, 0x2F, 0x2F, 0x2F, 0x2A, 0x0A,
      0x0D, 0x2F, 0x2F, 0x2A, 0x2F, 0x00, 0x0A]⟩
    let scanner := (ofSource source "utf-8").next.1
    let after := scanner.skip.1
    let cut : Gap.Cut := ⟨[.blockComment [0x2F], .lineComment [0x2A], .blank 0x0D],
      some [0x2A, 0x2F]⟩
    Reachable source "utf-8" scanner ∧ scanner.skip = (after, .ok ()) ∧
      scanner.position = ⟨1, 1, 2⟩ ∧ after.position = ⟨15, 2, 6⟩ ∧ source.stop = 15 ∧
      cut.Valid ∧ cut.bytes = source.between 1 15 ∧
      (∀ other : Gap.Cut, other.Valid → other.bytes = source.between 1 15 → other = cut) ∧
      after.skip = (after, .ok ()) ∧
      ∀ count, (scanner.advance (Gap.bytesOf (cut.items.take count)).length).skip =
        (after, .ok ()) := by
  intro source scanner after cut
  have hreached : Reachable source "utf-8" scanner := .draw .start rfl
  have hends : scanner.skip.2 = .ok () := by
    have hsome : scanner.skip.2.toOption = some () := by decide +kernel
    cases houtcome : scanner.skip.2 with
    | ok done => rfl
    | error report => simp [houtcome, Except.toOption] at hsome
  have hskip : scanner.skip = (after, .ok ()) := Prod.ext rfl hends
  have hfirst : scanner.position = ⟨1, 1, 2⟩ := by decide +kernel
  have hlast : after.position = ⟨15, 2, 6⟩ := by decide +kernel
  have hvalid : cut.Valid := ⟨by decide, by decide⟩
  have hbytes : cut.bytes = source.between 1 15 := by decide
  obtain ⟨_, _, _, _, _, hagain, found, _, _, honly, _, _, hitems⟩ :=
    skip_takes_longest hreached hskip
  rw [hfirst, hlast] at honly
  obtain rfl : cut = found := honly cut hvalid hbytes
  exact ⟨hreached, hskip, hfirst, hlast, by decide, hvalid, hbytes, honly, hagain, hitems⟩

end Scanner

end LetLang
