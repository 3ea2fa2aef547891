import BraceLang.Command
import BraceLang.Proofs.Execution
import BraceLang.Proofs.Lines
import BraceLang.Proofs.Positions
import BraceLang.Proofs.Scanning
import BraceLang.Proofs.Spelling

/-!
# A source is handled to the end

From a source to its reports there are three stages, each of which may fail: the reader that cuts the source into
tokens, the plans that read the tokens, and the reports that draw a caret under each diagnostic. For a source whose
offsets fit into a word the first two never fail (`Reader.scans_iff`, `Production.executes`). Every diagnostic stands
inside the source or at its end (`offset_le_of_mem_diagnosticsOf`), so there is a line to show for it
(`Line.at?_isSome_iff`). What is left is the caret: a report cannot be drawn exactly when the diagnostic stands
too far to the right of the spaces that its line starts with (`Report.render?_eq_none_iff`).

`Handled` puts these together, and `handled_of_size` says that every source is handled.
-/

set_option autoImplicit false

namespace BraceLang

open Text (byteLength)
open Lexeme (next? segment)

/-! ### Carets -/

namespace Report

/-- A diagnostic stands too far to the right if its line starts with too few spaces for the caret to be drawn. -/
def TooFar (source : String) (diagnostic : Diagnostic) : Prop :=
  ∃ line, Line.at? source.toList diagnostic.position.offset.toNat = some line ∧
    leadingSpaces line.text + 65535 ≤ line.column

/-- The caret is the only thing that may not be drawn: with a line to show, a report fails for the want of
columns alone. -/
theorem render?_eq_none_iff (diagnostic : Diagnostic) (source title : String) :
    render? diagnostic source title = none ↔ TooFar source diagnostic := by
  have hcolumns (line : Line) :
      ¬ caretOffset line < maxColumns ↔ leadingSpaces line.text + 65535 ≤ line.column := by
    unfold caretOffset maxColumns
    omega
  cases hline : Line.at? source.toList diagnostic.position.offset.toNat with
  | none => simp [render?, TooFar, hline]
  | some line => simp [render?, TooFar, hline, ← hcolumns]

/-- Reports are drawn one after the other, up to the first that cannot be. -/
theorem mapM_render?_eq_none_iff (diagnostics : List Diagnostic) (source title : String) :
    diagnostics.mapM (fun diagnostic => render? diagnostic source title) = none ↔
      ∃ diagnostic ∈ diagnostics, TooFar source diagnostic := by
  induction diagnostics with
  | nil => simp
  | cons diagnostic diagnostics ih =>
    rw [List.exists_mem_cons_iff, ← ih, ← render?_eq_none_iff diagnostic source title, List.mapM_cons]
    cases render? diagnostic source title <;>
      cases diagnostics.mapM (fun diagnostic => render? diagnostic source title) <;> simp

end Report

open Report (TooFar render? leadingSpaces)

namespace Command

/-- A run ends without a report if it was to, or if one of its reports cannot be drawn. -/
theorem code_withReports_iff {source title : String} {outcome : Outcome} {diagnostics : List Diagnostic} :
    (withReports source title outcome diagnostics).code = noReport ↔
      outcome.code = noReport ∨ ∃ diagnostic ∈ diagnostics, TooFar source diagnostic := by
  induction diagnostics generalizing outcome with
  | nil => simp [withReports]
  | cons diagnostic diagnostics ih =>
    rw [List.exists_mem_cons_iff, ← Report.render?_eq_none_iff diagnostic source title, withReports]
    cases hreport : render? diagnostic source title with
    | none => simp
    | some report => simp [ih]

end Command

/-! ### The diagnostics of a source -/

/-- The diagnostics of a source: the complaint that it cannot be cut into tokens or, where it can, all that is
reported on its tokens. Tokens without a file are given the name `name`. -/
def diagnosticsOf (source file name : String) : List Diagnostic :=
  match tokenize source file with
  | .error diagnostic => [diagnostic]
  | .ok tokens => (parse tokens name).2

/-- A source that cannot be cut into tokens is left before its end. -/
theorem offset_le_of_tokenize {source file : String} {diagnostic : Diagnostic}
    (hsize : source.utf8ByteSize < UInt32.size) (h : tokenize source file = .error diagnostic) :
    diagnostic.position.offset.toNat ≤ source.utf8ByteSize := by
  have hstop := Lexeme.stop_segment 0 source.toList
  rw [Nat.zero_add, Text.byteLength_toList] at hstop
  cases hrest : (segment 0 source.toList).rest with
  | nil => simp [tokenize, Token.ofSegmentation, hrest] at h
  | cons c cs =>
    simp only [tokenize, Token.ofSegmentation, hrest, Except.error.injEq] at h
    subst h
    rw [Position.toNat_offset_ofBytes file (by omega)]
    omega

/-- What is reported on the tokens of a source stands where one of them starts. -/
theorem offset_le_of_parse {source file name : String} {tokens : List Token} {diagnostic : Diagnostic}
    (hsize : source.utf8ByteSize < UInt32.size) (h : tokenize source file = .ok tokens)
    (hmem : diagnostic ∈ (parse tokens name).2) :
    diagnostic.position.offset.toNat ≤ source.utf8ByteSize := by
  have htiling := tiling_of_tokenize hsize h
  rw [(parse_eq_reading tokens name).2.1] at hmem
  obtain ⟨complaint, hcomplaint, rfl⟩ := List.mem_map.1 hmem
  obtain ⟨token, htoken, hposition⟩ := htiling.position_located hcomplaint name
  have hle := htiling.start_le_end (List.mem_of_getElem? htoken)
  rw [Nat.zero_add, Text.byteLength_toList] at hle
  rw [hposition, Cursor.offset_positionOf]
  exact hle

/-- No diagnostic stands behind the end of its source, whichever stage it comes from. -/
theorem offset_le_of_mem_diagnosticsOf {source file name : String} {diagnostic : Diagnostic}
    (hsize : source.utf8ByteSize < UInt32.size) (hmem : diagnostic ∈ diagnosticsOf source file name) :
    diagnostic.position.offset.toNat ≤ source.utf8ByteSize := by
  cases htokens : tokenize source file with
  | error fault =>
    simp only [diagnosticsOf, htokens, List.mem_singleton] at hmem
    subst hmem
    exact offset_le_of_tokenize hsize htokens
  | ok tokens =>
    simp only [diagnosticsOf, htokens] at hmem
    exact offset_le_of_parse hsize htokens hmem

/-- A run of the command cannot draw a report exactly when a diagnostic of its source stands too far to the
right. -/
theorem Command.code_runOn_iff (source file : String) :
    (runOn source file).code = noReport ↔
      ∃ diagnostic ∈ diagnosticsOf source file file, TooFar source diagnostic := by
  unfold runOn diagnosticsOf
  cases tokenize source file with
  | error diagnostic =>
    rw [code_withReports_iff, or_iff_right (by decide)]
  | ok tokens =>
    have hcode : (if (parse tokens file).2.isEmpty then success else failure) ≠ noReport := by
      split <;> decide
    rw [code_withReports_iff, or_iff_right hcode]

/-! ### From a source to its reports -/

/-- What becomes of a source, stage by stage, from its characters to the reports on it. -/
structure Handled (source file name : String) : Prop where
  /-- The reader never fails, and what it comes to are the tokens or the complaint. -/
  scanned : ∀ result, Reader.Scans (.ofSource source file) [] result ↔ result = tokenize source file
  /-- There is a plan to read programs by, and no such plan fails on the tokens: it comes to what is read. -/
  read : ∀ tokens, tokenize source file = .ok tokens →
    (∃ plan : Plan Program, plan.run = Production.program) ∧
    ∀ plan : Plan Program, plan.run = Production.program →
      plan.execute? (.ofTokens tokens name) = some (Production.program (.ofTokens tokens name))
  /-- Every diagnostic has a line to be shown with. -/
  shown : ∀ diagnostic ∈ diagnosticsOf source file name,
    (Line.at? source.toList diagnostic.position.offset.toNat).isSome = true
  /-- The reports cannot be drawn exactly when a diagnostic stands too far to the right. -/
  drawn : ∀ title,
    (diagnosticsOf source file name).mapM (fun diagnostic => render? diagnostic source title) = none ↔
      ∃ diagnostic ∈ diagnosticsOf source file name, TooFar source diagnostic
  /-- The command ends without a report in the same case and in no other. -/
  ended : (Command.runOn source file).code = Command.noReport ↔
    ∃ diagnostic ∈ diagnosticsOf source file file, TooFar source diagnostic

/-- Every source whose offsets fit into a word is handled. -/
theorem handled_of_size {source : String} (hsize : source.utf8ByteSize < UInt32.size) (file name : String) :
    Handled source file name where
  scanned result := Reader.scans_iff (Nat.lt_trans hsize (by decide))
  read tokens _ :=
    have hexecutes := Production.program.executes (Cursor.valid_ofTokens tokens name)
    ⟨hexecutes.planned, hexecutes.execute?_eq⟩
  shown diagnostic hmem := by
    rw [Line.at?_isSome_iff, Text.byteLength_toList]
    exact offset_le_of_mem_diagnosticsOf hsize hmem
  drawn title := Report.mapM_render?_eq_none_iff _ source title
  ended := Command.code_runOn_iff source file

/-! ### The limit is met -/

/-- A text without newlines is one line, unless it is empty. -/
theorem Line.split_eq_singleton {cs : List Char} (h : '\n' ∉ cs) (hne : cs ≠ []) : split cs = [cs] := by
  induction cs with
  | nil => exact absurd rfl hne
  | cons c cs ih =>
    obtain ⟨hc, hcs⟩ := not_or.1 (List.mem_cons.not.1 h)
    cases cs with
    | nil => rfl
    | cons d cs => rw [split, List.foldr_cons, ← split, ih hcs (by simp), consChar, if_neg (Ne.symm hc)]

/-- A source of `n` tabs and a character that no lexeme starts with. -/
def tabbed (n : Nat) : String :=
  String.ofList (List.replicate n '\t' ++ ['@'])

/-- Tabs are one byte each, so that offsets among them count them. -/
theorem byteLength_tabs (n : Nat) : byteLength (List.replicate n '\t') = n := by
  induction n with
  | zero => rfl
  | succ n ih =>
    rw [List.replicate_succ, Text.byteLength_cons, ih, show '\t'.utf8Size = 1 from rfl, Nat.add_comm]

/-- A source of tabs and one character behind them has one byte more than there are tabs. -/
theorem utf8ByteSize_tabbed (n : Nat) : (tabbed n).utf8ByteSize = n + 1 := by
  rw [tabbed, Text.utf8ByteSize_ofList, Text.byteLength_append, byteLength_tabs]
  rfl

/-- The tabs are skipped, and the character behind them is left. -/
theorem segment_tabs (n : Nat) :
    (segment 0 (List.replicate n '\t' ++ ['@'])).stop = n ∧
      (segment 0 (List.replicate n '\t' ++ ['@'])).rest = ['@'] := by
  have hstop (start : Nat) : segment start ['@'] = ⟨[], start, ['@']⟩ :=
    Lexeme.segment_of_next?_eq_none rfl
  cases n with
  | zero => rw [List.replicate_zero, List.nil_append, hstop]; exact ⟨rfl, rfl⟩
  | succ n =>
    have hblank : ∀ c ∈ List.replicate n '\t', Text.isBlank c = true := by
      intro c hc
      rw [List.eq_of_mem_replicate hc]
      rfl
    have htabs : (List.replicate n '\t' ++ ['@']).takeWhile Text.isBlank = List.replicate n '\t' := by
      rw [List.takeWhile_append_of_pos hblank]
      exact List.append_nil _
    have hnext : next? 0 (List.replicate (n + 1) '\t' ++ ['@']) =
        some (⟨.blank, 0, List.replicate (n + 1) '\t'⟩, ['@']) := by
      have hfirst : next? 0 ('\t' :: (List.replicate n '\t' ++ ['@'])) = _ := Lexeme.next?_blank rfl _
      rw [htabs, List.dropWhile_append_of_pos hblank] at hfirst
      exact hfirst
    rw [Lexeme.segment_of_next?_eq_some hnext, hstop, Lexeme.stop_of_next? hnext, byteLength_tabs]
    exact ⟨Nat.zero_add _, rfl⟩

/-- The only complaint about such a source is about the character behind the tabs. -/
theorem diagnosticsOf_tabbed (n : Nat) (file name : String) :
    diagnosticsOf (tabbed n) file name = [⟨.unrecognised (String.singleton '@'), .ofBytes file n⟩] := by
  obtain ⟨hstop, hrest⟩ := segment_tabs n
  have htokens : tokenize (tabbed n) file =
      .error ⟨.unrecognised (String.singleton '@'), .ofBytes file n⟩ := by
    rw [tokenize, tabbed, String.toList_ofList]
    simp only [Token.ofSegmentation, hrest, hstop]
  simp only [diagnosticsOf, htokens]

/-- The report on a tabbed source can be drawn up to the limit and not beyond. -/
theorem tooFar_tabbed_iff {n : Nat} (hn : n < UInt32.size) (file : String) :
    TooFar (tabbed n) ⟨.unrecognised (String.singleton '@'), .ofBytes file n⟩ ↔ 65535 ≤ n := by
  have hline : '\n' ∉ List.replicate n '\t' ++ ['@'] := by
    simp [List.mem_replicate]
  have hspaces : leadingSpaces (List.replicate n '\t' ++ ['@']) = 0 := by
    cases n <;> simp [leadingSpaces, List.replicate_succ]
  have hat : Line.at? (tabbed n).toList n = some ⟨1, List.replicate n '\t' ++ ['@'], n⟩ := by
    have hin : 0 ≤ n ∧ n < 0 + byteLength (List.replicate n '\t' ++ ['@']) := by
      simp [byteLength_tabs, Char.utf8Size_pos]
    rw [tabbed, String.toList_ofList, Line.at?, Line.split_eq_singleton hline (by simp), Line.inside?, if_pos hin]
    rfl
  simp [TooFar, Position.toNat_offset_ofBytes file hn, hat, hspaces]

/-- One column beyond the limit: the source is handled, and its report cannot be drawn. -/
theorem handled_of_size_sample :
    (tabbed 65535).utf8ByteSize < UInt32.size ∧ Handled (tabbed 65535) defaultFile defaultFile ∧
      (Command.runOn (tabbed 65535) defaultFile).code = Command.noReport ∧
      (Command.runOn (tabbed 65534) defaultFile).code ≠ Command.noReport := by
  have hsize : (tabbed 65535).utf8ByteSize < UInt32.size := by
    rw [utf8ByteSize_tabbed]
    decide
  have hsize' : (tabbed 65534).utf8ByteSize < UInt32.size := by
    rw [utf8ByteSize_tabbed]
    decide
  have hhandled := handled_of_size hsize defaultFile defaultFile
  have hhandled' := handled_of_size hsize' defaultFile defaultFile
  refine ⟨hsize, hhandled, hhandled.ended.2 ?_, fun hcode => ?_⟩
  · rw [diagnosticsOf_tabbed]
    exact ⟨_, List.mem_singleton_self _, (tooFar_tabbed_iff (by decide) _).2 (Nat.le_refl _)⟩
  · obtain ⟨diagnostic, hmem, hfar⟩ := hhandled'.ended.1 hcode
    rw [diagnosticsOf_tabbed, List.mem_singleton] at hmem
    subst hmem
    have hle := (tooFar_tabbed_iff (by decide) _).1 hfar
    omega

end BraceLang
