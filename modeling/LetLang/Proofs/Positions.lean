import LetLang.Source
import LetLang.Proofs.ByteClasses
import Mathlib.Data.List.Induction

/-!
# Positions and lines

A position is counted on from byte to byte, and the lines of a source are cut from all its
bytes. Both are known from the bytes before a place alone: the line is one more than the line
feeds among them, and the column starts anew after the last of them. So the line that a position
is on holds, from its column on, the bytes that follow.
-/

namespace LetLang

/-- The offset just after the last line feed of some bytes, or zero if there is none. -/
def lineStart (bytes : List Byte) : Nat :=
  (bytes.reverse.dropWhile (· != Byte.lineFeed)).length

@[simp]
theorem lineStart_concat_lineFeed (bytes : List Byte) :
    lineStart (bytes ++ [Byte.lineFeed]) = bytes.length + 1 := by
  simp [lineStart]

theorem lineStart_concat_of_ne {byte : Byte} (bytes : List Byte) (hbyte : byte ≠ Byte.lineFeed) :
    lineStart (bytes ++ [byte]) = lineStart bytes := by
  simp [lineStart, hbyte]

theorem lineStart_le (bytes : List Byte) : lineStart bytes ≤ bytes.length := by
  have hlength := (List.dropWhile_sublist (· != Byte.lineFeed) (l := bytes.reverse)).length_le
  rwa [List.length_reverse] at hlength

/-- The position at an offset of a source, by counting in the bytes before it. -/
def Source.positionAt (source : Source) (offset : Nat) : Position :=
  let before := source.bytes.take offset
  ⟨offset, 1 + before.count Byte.lineFeed, offset - lineStart before + 1⟩

/-- Going through bytes counts their line feeds and the bytes after the last one. -/
theorem Position.through_start (bytes : List Byte) :
    Position.start.through bytes =
      ⟨bytes.length, 1 + bytes.count Byte.lineFeed, bytes.length - lineStart bytes + 1⟩ := by
  induction bytes using List.reverseRecOn with
  | nil => rfl
  | append_singleton bytes byte ih =>
      rw [through_append, ih, through_cons, through_nil, advance]
      split
      next hfeed =>
        subst hfeed
        simp only [List.length_append, List.length_singleton, List.count_append,
          List.count_singleton_self, lineStart_concat_lineFeed, Nat.sub_self]
        rfl
      next hother =>
        have hstart := lineStart_le bytes
        rw [lineStart_concat_of_ne bytes hother]
        simp [hother]
        omega

theorem Position.offset_through_start (bytes : List Byte) :
    (Position.start.through bytes).offset = bytes.length := by
  rw [offset_through]
  exact Nat.zero_add _

theorem Source.positionAt_length {source : Source} {before after : List Byte}
    (hbytes : source.bytes = before ++ after) :
    source.positionAt before.length = Position.start.through before := by
  rw [positionAt, hbytes, List.take_left, Position.through_start]

/-! ## The line of a position -/

theorem length_splitOn_lineFeed (bytes : List Byte) :
    (bytes.splitOn Byte.lineFeed).length = bytes.count Byte.lineFeed + 1 := by
  induction bytes with
  | nil => rfl
  | cons byte bytes ih =>
      rw [List.splitOn_cons_eq_if_modifyHead, List.count_cons]
      split
      next => rw [List.length_cons, ih]
      next => rw [List.length_modifyHead, ih, Nat.add_zero]

theorem head?_splitOn_lineFeed (bytes : List Byte) :
    (bytes.splitOn Byte.lineFeed).head? = some (bytes.takeWhile (· != Byte.lineFeed)) := by
  induction bytes with
  | nil => rfl
  | cons byte bytes ih =>
      rw [List.splitOn_cons_eq_if_modifyHead]
      split
      next hfeed => simp [bne, hfeed]
      next hfeed => simp [bne, hfeed, List.head?_modifyHead, ih]

/-- The line that a place is on is what stands before the place since the last line feed, and
what follows up to the next one. -/
theorem getElem?_splitOn_lineFeed (before after : List Byte) :
    ((before ++ after).splitOn Byte.lineFeed)[before.count Byte.lineFeed]? =
      some (before.drop (lineStart before) ++ after.takeWhile (· != Byte.lineFeed)) := by
  induction before using List.reverseRecOn generalizing after with
  | nil => simpa [lineStart, List.head?_eq_getElem?] using head?_splitOn_lineFeed after
  | append_singleton before byte ih =>
      by_cases hfeed : byte = Byte.lineFeed
      · -- the place is at the start of a line, which is the first one of what follows
        subst hfeed
        have hhead := head?_splitOn_lineFeed after
        rw [List.head?_eq_getElem?] at hhead
        rw [List.append_assoc, List.singleton_append, List.splitOn_append_cons_self,
          List.getElem?_append_right (by simp [length_splitOn_lineFeed]),
          lineStart_concat_lineFeed]
        simpa [length_splitOn_lineFeed] using hhead
      · have hline := ih (byte :: after)
        have hstart := lineStart_le before
        rw [lineStart_concat_of_ne before hfeed, List.drop_append_of_le_length hstart,
          List.append_assoc, List.singleton_append]
        simpa [hfeed] using hline

theorem Source.line_positionAt {source : Source} {before after : List Byte}
    (hbytes : source.bytes = before ++ after) :
    source.line (source.positionAt before.length).line =
      latinText (trimLine
        (before.drop (lineStart before) ++ after.takeWhile (· != Byte.lineFeed))) := by
  have hline := getElem?_splitOn_lineFeed before after
  rw [← hbytes] at hline
  have hnumber : ¬ ((source.positionAt before.length).line : Int) < 1 := by
    simp only [positionAt]
    omega
  have hindex : ((source.positionAt before.length).line : Int).toNat - 1 =
      before.count Byte.lineFeed := by
    simp only [positionAt, hbytes, List.take_left]
    omega
  rw [line, if_neg hnumber, hindex, lines, hline]

/-! ## What a quoted line shows -/

theorem dropWhile_append_of_head {α : Type} (test : α → Bool) {first : α} (front rest : List α)
    (hfirst : test first = false) :
    ∃ kept, (front ++ first :: rest).dropWhile test = kept ++ first :: rest := by
  rw [List.dropWhile_append]
  split
  · exact ⟨[], by simp [hfirst]⟩
  · exact ⟨front.dropWhile test, rfl⟩

/-- Trimming a line takes nothing off before a byte that is no carriage return. -/
theorem exists_trimLine_append {last : Byte} (shown rest : List Byte)
    (hlast : last ≠ Byte.carriageReturn) :
    ∃ kept, Source.trimLine (shown ++ last :: rest) = shown ++ last :: kept := by
  obtain ⟨kept, hkept⟩ := dropWhile_append_of_head (· == Byte.carriageReturn) rest.reverse
    shown.reverse (beq_eq_false_iff_ne.mpr hlast)
  refine ⟨kept.reverse, ?_⟩
  rw [Source.trimLine, List.reverse_append, List.reverse_cons, List.append_assoc,
    List.singleton_append, hkept]
  simp

/-- Bytes without a blank are shown at the column of their place by the line that messages
quote: no line feed cuts them, and no carriage return of theirs is trimmed. -/
theorem Source.line_shows {source : Source} {before shown after : List Byte}
    (hbytes : source.bytes = before ++ (shown ++ after))
    (hshown : ∀ byte ∈ shown, byte.isBlank = false) :
    ((source.line (source.positionAt before.length).line).toList.drop
        ((source.positionAt before.length).column - 1)).take shown.length =
      shown.map Byte.toChar := by
  rcases List.eq_nil_or_concat' shown with rfl | ⟨front, last, rfl⟩
  · rfl
  have hfeed : ∀ byte ∈ front ++ [last], (byte != Byte.lineFeed) = true := by
    intro byte hbyte
    refine bne_iff_ne.mpr ?_
    rintro rfl
    exact absurd (hshown Byte.lineFeed hbyte) (by decide)
  have hlast : last ≠ Byte.carriageReturn := by
    rintro rfl
    exact absurd (hshown Byte.carriageReturn (by simp)) (by decide)
  have htake : (front ++ [last] ++ after).takeWhile (· != Byte.lineFeed) =
      front ++ last :: after.takeWhile (· != Byte.lineFeed) := by
    rw [List.takeWhile_append_of_pos hfeed, List.append_assoc, List.singleton_append]
  obtain ⟨kept, hkept⟩ := exists_trimLine_append (before.drop (lineStart before) ++ front)
    (after.takeWhile (· != Byte.lineFeed)) hlast
  have hcolumn : (source.positionAt before.length).column - 1 =
      ((before.drop (lineStart before)).map Byte.toChar).length := by
    simp [positionAt, hbytes]
  rw [line_positionAt hbytes, htake, ← List.append_assoc, hkept, hcolumn, latinText,
    String.toList_ofList, List.append_assoc, List.map_append, List.drop_left,
    List.append_cons front last kept, List.map_append]
  exact List.take_left' (List.length_map _)

end LetLang
