import LetLang.Proofs.Execution
import LetLang.Proofs.Layout
import LetLang.Proofs.Scanning

/-!
# What sources are compiled to

Lines tell the statement that they are emitted for, even as one text: no line holds a line feed,
an instruction is read back from its line, and a statement from its instructions. And every
statement of names and numbers is the statement of a source, so the lines that can be emitted
are those of such statements.
-/

namespace LetLang

/-- Writing one element after the other loses nothing if all are written at one length. -/
theorem flatMap_injective {α β : Type} {write : α → List β} {width : Nat}
    (hwidth : ∀ element, (write element).length = width + 1) (hwrite : Function.Injective write) :
    Function.Injective (List.flatMap write) := by
  have hwritten (element : α) (rest : List β) : write element ++ rest ≠ [] := by
    intro hnil
    have hlength := hwidth element
    rw [(List.append_eq_nil_iff.mp hnil).1] at hlength
    cases hlength
  intro first second heq
  induction first generalizing second with
  | nil =>
      cases second with
      | nil => rfl
      | cons element second => exact absurd heq.symm (hwritten _ _)
  | cons element first ih =>
      cases second with
      | nil => exact absurd heq (hwritten _ _)
      | cons other second =>
          rw [List.flatMap_cons, List.flatMap_cons] at heq
          obtain ⟨helement, hrest⟩ := List.append_inj heq ((hwidth _).trans (hwidth _).symm)
          rw [hwrite helement, ih hrest]

/-! ## Names and operands -/

/-- Whether a text is a word that is not reserved. -/
def IsName (text : String) : Prop :=
  ∃ word, IsWord word ∧ latinText word = text ∧ ∀ reserved : Keyword, text ≠ reserved.word

/-- Whether a text is a number as it is written, or a name. -/
def IsTerm (text : String) : Prop :=
  (∃ digits, IsNumber digits ∧ latinText digits = text) ∨ IsName text

theorem isName_iff {text : String} :
    IsName text ↔ ∃ name, (Spelling.identifier name).Valid ∧ latinText name = text := by
  constructor
  · rintro ⟨word, hword, rfl, hother⟩
    exact ⟨word, ⟨hword, hother⟩, rfl⟩
  · rintro ⟨name, ⟨hword, hother⟩, rfl⟩
    exact ⟨name, hword, rfl, hother⟩

theorem isTerm_iff {text : String} :
    IsTerm text ↔ ∃ operand : Spelling, (operand.Valid ∧ operand.IsOperand) ∧
      latinText operand.bytes = text := by
  constructor
  · rintro (⟨digits, hdigits, rfl⟩ | hname)
    · exact ⟨.number digits, ⟨hdigits, Or.inl rfl⟩, rfl⟩
    · obtain ⟨name, hvalid, rfl⟩ := isName_iff.mp hname
      exact ⟨.identifier name, ⟨hvalid, Or.inr rfl⟩, rfl⟩
  · rintro ⟨operand, ⟨hvalid, hoperand⟩, rfl⟩
    cases operand with
    | number digits => exact Or.inl ⟨digits, hvalid, rfl⟩
    | identifier name => exact Or.inr (isName_iff.mpr ⟨name, hvalid, rfl⟩)
    | _ => simp [Spelling.IsOperand, Spelling.kind] at hoperand

theorem Spelling.continuesWord_of_isOperand {operand : Spelling} (hvalid : operand.Valid)
    (hoperand : operand.IsOperand) : ∀ byte ∈ operand.bytes, byte.continuesWord = true := by
  cases operand with
  | number digits =>
      exact fun byte hbyte =>
        Byte.continuesWord_of_isDigit (IsNumber.isDigit_of_mem hvalid byte hbyte)
  | identifier name => exact hvalid.1.continuesWord_of_mem
  | _ => simp [Spelling.IsOperand, Spelling.kind] at hoperand

namespace Scanner

/-- The text of a name or a number is what it is written as, whatever the encoding. -/
theorem isTerm_of_next {scanner after : Scanner} {token : Token}
    (hdraw : scanner.next = (after, .ok token)) :
    (token.kind = .identifier → IsName token.text) ∧
      (token.kind = .number ∨ token.kind = .identifier → IsTerm token.text) := by
  rcases next_ok_cases hdraw with
    ⟨_, spelling, _, _, hvalid, _, _, htext, hkind, _⟩ | ⟨_, hkind, _⟩
  · rw [hkind]
    cases spelling with
    | number digits =>
        have htext : latinText digits = token.text := Except.ok.inj htext
        exact ⟨by simp [Spelling.kind], fun _ => Or.inl ⟨digits, hvalid, htext⟩⟩
    | identifier name =>
        have htext : latinText name = token.text := Except.ok.inj htext
        have hname := isName_iff.mpr ⟨name, hvalid, htext⟩
        exact ⟨fun _ => hname, fun _ => Or.inr hname⟩
    | _ => simp [Spelling.kind]
  · simp [hkind]

theorem Draws.isTerm {scanner after : Scanner} {tokens : List Token}
    (hdraws : scanner.Draws tokens after) : ∀ token ∈ tokens,
      (token.kind = .identifier → IsName token.text) ∧
        (token.kind = .number ∨ token.kind = .identifier → IsTerm token.text) := by
  induction hdraws with
  | nil => simp
  | cons hdraw _ ih => exact List.forall_mem_cons.mpr ⟨isTerm_of_next hdraw, ih⟩

end Scanner

/-! ## Well-formed statements -/

namespace Statement

/-- Whether the target is a name and the operands are names and numbers. -/
structure WellFormed (statement : Statement) : Prop where
  target : IsName statement.target
  first : IsTerm statement.first
  rest : ∀ link ∈ statement.rest, IsTerm link.2

/-- The lines of a statement: the first operand is pushed, every other one is pushed and its
operator applied, and the result is popped. -/
def lines (statement : Statement) : List String :=
  ("push " ++ statement.first) ::
    statement.rest.flatMap (fun link => ["push " ++ link.2, link.1.word]) ++
    ["pop " ++ statement.target]

theorem map_line_instructions (statement : Statement) :
    statement.instructions.map Instruction.line = statement.lines := by
  simp [instructions, lines, List.map_flatMap, linkInstructions, Instruction.line]

/-- The tokens of a statement but its semicolon. -/
def openTokens (statement : Statement) : List (Kind × String) :=
  [(.keyword .let, Keyword.let.word), (.identifier, statement.target),
    (.mark .equals, latinText [Mark.equals.byte]), (kindOf statement.first, statement.first)] ++
  statement.rest.flatMap linkTokens

theorem tokens_eq_openTokens (statement : Statement) :
    statement.tokens = statement.openTokens ++ [semicolonKey] := rfl

/-- A statement whose operands and target have been drawn from a scanner is well-formed. -/
theorem wellFormed_of_draws {statement : Statement} {scanner after : Scanner}
    {tokens : List Token} (hdraws : scanner.Draws tokens after)
    (hkeys : statement.openTokens <+: tokens.map Token.key) : statement.WellFormed := by
  have hdrawn {kind : Kind} {text : String} (hmem : (kind, text) ∈ statement.openTokens) :
      (kind = .identifier → IsName text) ∧
        (kind = .number ∨ kind = .identifier → IsTerm text) := by
    obtain ⟨token, htoken, hkey⟩ := List.mem_map.mp (hkeys.subset hmem)
    obtain ⟨rfl, rfl⟩ := Prod.mk.inj hkey
    exact hdraws.isTerm token htoken
  have hlink {link : Operator × String} (hmem : link ∈ statement.rest) :
      (kindOf link.2, link.2) ∈ statement.rest.flatMap linkTokens :=
    List.mem_flatMap.mpr ⟨link, hmem, by simp [linkTokens]⟩
  have htarget : (Kind.identifier, statement.target) ∈ statement.openTokens := by
    simp [openTokens]
  have hfirst : (kindOf statement.first, statement.first) ∈ statement.openTokens := by
    simp [openTokens]
  exact ⟨(hdrawn htarget).1 rfl, (hdrawn hfirst).2 (kindOf_eq _), fun link hmem =>
    (hdrawn (List.mem_append_right _ (hlink hmem))).2 (kindOf_eq _)⟩

end Statement

/-! ## From a statement to a source -/

/-- A statement laid out on one line with a single blank. -/
def Layout.compact (target : List Byte) (first : Spelling) (links : List (Operator × Spelling)) :
    Layout :=
  ⟨[], [0x20], target, [], [], first, links.map fun link => ⟨[], link.1, [], link.2⟩, []⟩

namespace Layout

variable {target : List Byte} {first : Spelling} {links : List (Operator × Spelling)}

theorem valid_compact (htarget : (Spelling.identifier target).Valid)
    (hfirst : first.Valid ∧ first.IsOperand)
    (hlinks : ∀ link ∈ links, link.2.Valid ∧ link.2.IsOperand) :
    (compact target first links).Valid where
  beforeLet := Gap.isGap_nil
  beforeTarget := ⟨[.blank 0x20], by decide, rfl⟩
  apart := by simp [compact]
  target := htarget
  beforeEquals := Gap.isGap_nil
  beforeFirst := Gap.isGap_nil
  first := hfirst
  links := by
    intro link hlink
    obtain ⟨written, hwritten, rfl⟩ := List.mem_map.mp hlink
    exact ⟨Gap.isGap_nil, Gap.isGap_nil, hlinks written hwritten⟩
  beforeEnd := Gap.isGap_nil

theorem nul_not_mem_compact (htarget : (Spelling.identifier target).Valid)
    (hfirst : first.Valid ∧ first.IsOperand)
    (hlinks : ∀ link ∈ links, link.2.Valid ∧ link.2.IsOperand) :
    Byte.nul ∉ (compact target first links).bytes := by
  have hword {bytes : List Byte} (hbytes : ∀ byte ∈ bytes, byte.continuesWord = true) :
      Byte.nul ∉ bytes := fun hnul => absurd (hbytes _ hnul) (by decide)
  have hsign (operator : Operator) : Byte.nul ≠ (Statement.markOf operator).byte := by
    cases operator <;> decide
  have hnul : Byte.nul ∉ (compact target first links).links.flatMap Link.bytes := by
    intro hmem
    obtain ⟨link, hlink, hmem⟩ := List.mem_flatMap.mp hmem
    obtain ⟨written, hwritten, rfl⟩ := List.mem_map.mp hlink
    obtain ⟨hvalid, hoperand⟩ := hlinks written hwritten
    have hbytes := hword (Spelling.continuesWord_of_isOperand hvalid hoperand)
    simp [Link.bytes, Link.sign, hsign, hbytes] at hmem
  have hlet : Byte.nul ∉ Keyword.let.bytes := by decide
  have hblank : Byte.nul ≠ 0x20 := by decide
  have hequals : Byte.nul ≠ Mark.equals.byte := by decide
  have hsemicolon : Byte.nul ≠ Mark.semicolon.byte := by decide
  have hname : Byte.nul ∉ target :=
    hword (Spelling.continuesWord_of_isOperand htarget (Or.inr rfl))
  have hbytes := hword (Spelling.continuesWord_of_isOperand hfirst.1 hfirst.2)
  rw [compact] at hnul ⊢
  simp only [bytes, List.mem_append, List.mem_singleton, List.not_mem_nil, hlet, hblank, hname,
    hequals, hbytes, hnul, hsemicolon, or_self, not_false_eq_true]

end Layout

namespace Statement

theorem exists_spelled {links : List (Operator × String)}
    (hlinks : ∀ link ∈ links, IsTerm link.2) :
    ∃ spelled : List (Operator × Spelling),
      (∀ link ∈ spelled, link.2.Valid ∧ link.2.IsOperand) ∧
        spelled.map (fun link => (link.1, latinText link.2.bytes)) = links := by
  induction links with
  | nil => exact ⟨[], by simp, rfl⟩
  | cons link links ih =>
      obtain ⟨hlink, hlinks⟩ := List.forall_mem_cons.mp hlinks
      obtain ⟨spelled, hspelled, rfl⟩ := ih hlinks
      obtain ⟨operand, hoperand, htext⟩ := isTerm_iff.mp hlink
      refine ⟨(link.1, operand) :: spelled, List.forall_mem_cons.mpr ⟨hoperand, hspelled⟩, ?_⟩
      rw [List.map_cons, htext]

/-- Every well-formed statement is compiled from some source. -/
theorem WellFormed.exists_source {statement : Statement} (hstatement : statement.WellFormed)
    {codec : Encoding} {options : Options} (hcodec : Encoding.find options.encoding.name = .ok codec) :
    ∃ source result, (compile options source).outcome = .ok result ∧
      result.instructions = statement.lines := by
  obtain ⟨target, htarget, hname⟩ := isName_iff.mp hstatement.target
  obtain ⟨first, hfirst, htext⟩ := isTerm_iff.mp hstatement.first
  obtain ⟨links, hlinks, hrest⟩ := exists_spelled hstatement.rest
  let layout := Layout.compact target first links
  have hlayout : layout.statement = statement := by
    simp [layout, Layout.statement, Layout.compact, hname, htext, Function.comp_def, hrest]
  have hnul : Byte.nul ∉ layout.bytes := Layout.nul_not_mem_compact htarget hfirst hlinks
  have hclosed : ¬ Gap.EndsUnclosed [] := by
    rintro ⟨gap, comment, _, ⟨inside, _, rfl⟩, hnil⟩
    simp [Gap.blockOpener] at hnil
  have hsource : (Source.mk Source.defaultFile layout.bytes).text = layout.bytes ++ [] := by
    rw [Source.text_of_not_mem hnul, List.append_nil]
  obtain ⟨tokens, houtcome⟩ := Layout.exists_outcome_of_valid hcodec
    (Layout.valid_compact htarget hfirst hlinks) hsource hclosed
  refine ⟨_, _, houtcome, ?_⟩
  rw [← statement.map_line_instructions, ← hlayout]
  rfl

/-! ## From lines to their statement -/

theorem linkInstructions_injective : Function.Injective linkInstructions := by
  rintro ⟨operator, operand⟩ ⟨other, text⟩ heq
  simp only [linkInstructions, List.cons.injEq, Instruction.push.injEq,
    Instruction.apply.injEq] at heq
  obtain ⟨rfl, rfl, _⟩ := heq
  rfl

theorem instructions_injective : Function.Injective instructions := by
  rintro ⟨target, first, rest⟩ ⟨other, operand, links⟩ heq
  obtain ⟨hcomputed, htarget⟩ := List.append_inj' heq rfl
  obtain ⟨hfirst, hlinks⟩ := List.cons.inj hcomputed
  obtain rfl := flatMap_injective (fun _ => rfl) linkInstructions_injective hlinks
  obtain rfl := Instruction.push.inj hfirst
  obtain rfl := Instruction.pop.inj (List.singleton_inj.mp htarget)
  rfl

theorem lines_injective : Function.Injective lines := by
  intro first second heq
  rw [← map_line_instructions, ← map_line_instructions] at heq
  refine instructions_injective (List.map_injective_iff.mpr ?_ heq)
  intro left right hline
  have hread := congrArg Instruction.ofLine? hline
  rw [Instruction.ofLine?_line, Instruction.ofLine?_line] at hread
  exact Option.some.inj hread

end Statement

/-! ## Lines as one text -/

/-- Whether a text holds printable ASCII characters only. -/
def IsPrintable (text : String) : Prop :=
  ∀ char ∈ text.toList, 0x20 ≤ char.toNat ∧ char.toNat < 0x7F

instance : DecidablePred IsPrintable :=
  fun text =>
    List.decidableBAll (fun char : Char => 0x20 ≤ char.toNat ∧ char.toNat < 0x7F) text.toList

theorem IsPrintable.append {first second : String} (hfirst : IsPrintable first)
    (hsecond : IsPrintable second) : IsPrintable (first ++ second) := by
  intro char hchar
  rw [String.toList_append, List.mem_append] at hchar
  exact hchar.elim (hfirst char) (hsecond char)

theorem IsPrintable.lineFeed_not_mem {line : String} (hline : IsPrintable line) :
    '\n' ∉ line.toList := fun hfeed => absurd (hline _ hfeed) (by decide)

theorem IsTerm.isPrintable {text : String} (hterm : IsTerm text) : IsPrintable text := by
  obtain ⟨operand, ⟨hvalid, hoperand⟩, rfl⟩ := isTerm_iff.mp hterm
  intro char hchar
  rw [latinText, String.toList_ofList, List.mem_map] at hchar
  obtain ⟨byte, hbyte, rfl⟩ := hchar
  have hword := Spelling.continuesWord_of_isOperand hvalid hoperand byte hbyte
  rw [Byte.toNat_toChar]
  exact Byte.printable_of_continuesWord hword

theorem Statement.WellFormed.isPrintable {statement : Statement}
    (hstatement : statement.WellFormed) : ∀ line ∈ statement.lines, IsPrintable line := by
  have hpush : IsPrintable "push " := by decide
  have hpop : IsPrintable "pop " := by decide
  have hword (operator : Operator) : IsPrintable operator.word := by
    cases operator <;> decide
  have htarget : IsTerm statement.target := Or.inr hstatement.target
  simp only [lines, List.cons_append, List.forall_mem_cons, List.forall_mem_append,
    List.mem_flatMap]
  refine ⟨hpush.append hstatement.first.isPrintable, ?_, hpop.append htarget.isPrintable,
    List.forall_mem_nil _⟩
  rintro line ⟨link, hlink, hline⟩
  have hoperand := hpush.append (hstatement.rest link hlink).isPrintable
  rcases List.mem_pair.mp hline with rfl | rfl
  · exact hoperand
  · exact hword link.1

theorem Statement.WellFormed.lineFeed_not_mem {statement : Statement}
    (hstatement : statement.WellFormed) : ∀ line ∈ statement.lines, '\n' ∉ line.toList :=
  fun line hline => (hstatement.isPrintable line hline).lineFeed_not_mem

/-- Splitting at line feeds gives lines back that hold none, and nothing after the last one. -/
theorem splitOn_textOfLines {lines : List String}
    (hlines : ∀ line ∈ lines, '\n' ∉ line.toList) :
    (textOfLines lines).toList.splitOn '\n' = lines.map String.toList ++ [[]] := by
  induction lines with
  | nil => rfl
  | cons line lines ih =>
      obtain ⟨hline, hlines⟩ := List.forall_mem_cons.mp hlines
      have htext : (textOfLines (line :: lines)).toList =
          line.toList ++ '\n' :: (textOfLines lines).toList := by
        simp [textOfLines_cons]
      rw [htext, List.splitOn_append_cons_self_of_not_mem hline, ih hlines]
      rfl

theorem textOfLines_inj {first second : List String}
    (hfirst : ∀ line ∈ first, '\n' ∉ line.toList) (hsecond : ∀ line ∈ second, '\n' ∉ line.toList)
    (htext : textOfLines first = textOfLines second) : first = second := by
  have hsplit := congrArg (fun text : String => text.toList.splitOn '\n') htext
  simp only [splitOn_textOfLines hfirst, splitOn_textOfLines hsecond] at hsplit
  exact List.map_injective_iff.mpr (fun _ _ => String.toList_inj.mp)
    (List.append_cancel_right hsplit)

/-! ## The image -/

/-- Whether the tokens of a statement are the first ones drawn from a source. -/
def Source.StartsWith (source : Source) (encoding : Decoder) (statement : Statement) : Prop :=
  ∃ tokens after, (Scanner.ofSource source encoding).Draws tokens after ∧
    tokens.map Token.key = statement.tokens

/-- An accepted source starts with a well-formed statement, and its lines are emitted. -/
theorem exists_wellFormed_of_outcome {options : Options} {source : Source} {result : Result}
    (houtcome : (compile options source).outcome = .ok result) :
    ∃ statement : Statement, statement.WellFormed ∧
      source.StartsWith options.encoding statement ∧ result.instructions = statement.lines := by
  obtain ⟨statement, tokens, last, after, hdraws, hkeys, rfl⟩ :=
    outcome_compile_eq_ok_iff.mp houtcome
  obtain ⟨middle, htokens, _⟩ := Scanner.Draws.concat_iff.mp hdraws
  have hopen : statement.openTokens <+: tokens.map Token.key := by
    rw [hkeys, statement.tokens_eq_openTokens]
    exact List.prefix_append _ _
  exact ⟨statement, Statement.wellFormed_of_draws htokens hopen, ⟨tokens, middle, htokens, hkeys⟩,
    statement.map_line_instructions⟩

theorem exists_result_of_instructions {outcome : Except Fault Result} {lines : List String}
    (hlines : (outcome.map Result.instructions).toOption = some lines) :
    ∃ result, outcome = .ok result ∧ result.instructions = lines := by
  cases outcome with
  | error fault => cases hlines
  | ok result => exact ⟨result, rfl, Option.some.inj hlines⟩

/-- **What is emitted tells the statement, and which lines can be emitted is known.** Sources with
the same text of lines start with the tokens of one statement. Lines are those of an accepted
source exactly if they are those of names and numbers in the order of a statement. They are
printable, and the text of a result is cut into them at its line feeds. -/
theorem compile_image {codec : Encoding} (options : Options)
    (hcodec : Encoding.find options.encoding.name = .ok codec) :
    (∀ (others : Options) (first second : Source) (left right : Result),
      (compile options first).outcome = .ok left →
      (compile others second).outcome = .ok right → left.text = right.text →
      ∃ statement, first.StartsWith options.encoding statement ∧
        second.StartsWith others.encoding statement) ∧
    (∀ lines, (∃ source result, (compile options source).outcome = .ok result ∧
        result.instructions = lines) ↔
      ∃ (first target : String) (links : List (Operator × String)), IsTerm first ∧
        (∀ link ∈ links, IsTerm link.2) ∧ IsName target ∧
        lines = ("push " ++ first) ::
          links.flatMap (fun link => ["push " ++ link.2, link.1.word]) ++ ["pop " ++ target]) ∧
    ∀ source result, (compile options source).outcome = .ok result →
      (∀ line ∈ result.instructions, IsPrintable line) ∧
        result.text.toList.splitOn '\n' = result.instructions.map String.toList ++ [[]] := by
  refine ⟨fun others first second left right hleft hright htext => ?_, fun lines => ⟨?_, ?_⟩,
    fun source result houtcome => ?_⟩
  · obtain ⟨statement, hstatement, hstarts, hlines⟩ := exists_wellFormed_of_outcome hleft
    obtain ⟨other, hother, hothers, hlinesOther⟩ := exists_wellFormed_of_outcome hright
    rw [Result.text, Result.text, hlines, hlinesOther] at htext
    have hsame := textOfLines_inj hstatement.lineFeed_not_mem hother.lineFeed_not_mem htext
    obtain rfl := Statement.lines_injective hsame
    exact ⟨statement, hstarts, hothers⟩
  · rintro ⟨source, result, houtcome, rfl⟩
    obtain ⟨statement, hstatement, _, hlines⟩ := exists_wellFormed_of_outcome houtcome
    exact ⟨statement.first, statement.target, statement.rest, hstatement.first, hstatement.rest,
      hstatement.target, hlines⟩
  · rintro ⟨first, target, links, hfirst, hlinks, htarget, rfl⟩
    have hstatement : (Statement.mk target first links).WellFormed := ⟨htarget, hfirst, hlinks⟩
    exact hstatement.exists_source hcodec
  · obtain ⟨statement, hstatement, _, hlines⟩ := exists_wellFormed_of_outcome houtcome
    rw [Result.text, hlines]
    exact ⟨hstatement.isPrintable, splitOn_textOfLines hstatement.lineFeed_not_mem⟩

/-- Names that instructions have, laid out in two ways. -/
theorem compile_image_instruction_names :
    let first : Source := ⟨"glued", [0x6C, 0x65, 0x74, 0x20, 0x61, 0x64, 0x64, 0x3D, 0x70, 0x6F,
      0x70, 0x2D, 0x31, 0x3B]⟩
    let second : Source := ⟨"apart", [0x6C, 0x65, 0x74, 0x2F, 0x2A, 0x2A, 0x2F, 0x61, 0x64, 0x64,
      0x20, 0x3D, 0x0A, 0x70, 0x6F, 0x70, 0x20, 0x2D, 0x20, 0x31, 0x20, 0x3B, 0x22]⟩
    Encoding.find "utf-8" = .ok .utf8 ∧
    ∃ left right, (compile .standard first).outcome = .ok left ∧
      (compile .standard second).outcome = .ok right ∧
      left.instructions = ["push pop", "push 1", "sub", "pop add"] ∧ left.text = right.text ∧
      (∃ statement, first.StartsWith "utf-8" statement ∧ second.StartsWith "utf-8" statement) ∧
      (∃ (first target : String) (links : List (Operator × String)), IsTerm first ∧
        (∀ link ∈ links, IsTerm link.2) ∧ IsName target ∧
        left.instructions = ("push " ++ first) ::
          links.flatMap (fun link => ["push " ++ link.2, link.1.word]) ++ ["pop " ++ target]) ∧
      (∀ line ∈ left.instructions, IsPrintable line) ∧
      left.text.toList.splitOn '\n' = left.instructions.map String.toList ++ [[]] := by
  intro first second
  obtain ⟨hinjective, hlines, htext⟩ := compile_image .standard rfl
  have hread (source : Source) (hsource : source = first ∨ source = second) :
      ((compile .standard source).outcome.map Result.instructions).toOption =
        some ["push pop", "push 1", "sub", "pop add"] := by
    rcases hsource with rfl | rfl <;> decide +kernel
  obtain ⟨left, hleft, hleftLines⟩ := exists_result_of_instructions (hread first (Or.inl rfl))
  obtain ⟨right, hright, hrightLines⟩ := exists_result_of_instructions (hread second (Or.inr rfl))
  have hsame : left.text = right.text := by
    rw [Result.text, Result.text, hleftLines, hrightLines]
  exact ⟨rfl, left, right, hleft, hright, hleftLines, hsame,
    hinjective .standard first second left right hleft hright hsame,
    (hlines left.instructions).mp ⟨first, left, hleft, rfl⟩, htext first left hleft⟩

end LetLang
