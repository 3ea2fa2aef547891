import BraceLang.Proofs.Lines
import BraceLang.Report

/-!
# Where the caret stands

A report shows the line of a diagnostic without the white space around it, and under it a caret behind a row of dashes.
For the caret to stand under the place, there has to be a dash for each character that is shown in front of it. But the
caret is moved left by the spaces at the start of the line only, while all white space is cut off there.

So the caret stands under its character if the white space at the start of the line is spaces. Otherwise it stands
farther right, by the number of the white space characters from the first that is no space on (`dashes_of_render?`).

`dashes` and `shown` read a report as the text that it is: its last line, and the line above that behind the bar.
-/

set_option autoImplicit false

namespace BraceLang

open Text (byteLength isBlank)

/-! ### White space around a line -/

namespace Text

variable {c : Char}

/-- Around a character that is no white space a text is trimmed on either side of it. -/
theorem trim_append_cons (hc : isBlank c = false) (front back : List Char) :
    trim (front ++ c :: back) = front.dropWhile isBlank ++ c :: back.rdropWhile isBlank := by
  have hreverse : (front.dropWhile isBlank ++ c :: back).reverse =
      back.reverse ++ c :: (front.dropWhile isBlank).reverse := by simp
  rw [trim, dropWhile_append_cons hc, hreverse, dropWhile_append_cons hc, List.rdropWhile]
  simp

/-- A space is white space, so it may as well be dropped before. -/
theorem dropWhile_dropWhile_space (cs : List Char) :
    (cs.dropWhile (· = ' ')).dropWhile isBlank = cs.dropWhile isBlank := by
  induction cs with
  | nil => rfl
  | cons d cs ih =>
    by_cases hd : d = ' '
    · subst hd
      rw [List.dropWhile_cons_of_pos (by simp), ih, List.dropWhile_cons_of_pos (by decide)]
    · rw [List.dropWhile_cons_of_neg (by simp [hd])]

/-- A text of ASCII characters has as many bytes as characters. -/
theorem byteLength_of_ascii {cs : List Char} (h : ∀ c ∈ cs, c.toNat < 128) : byteLength cs = cs.length := by
  induction cs with
  | nil => rfl
  | cons c cs ih =>
    obtain ⟨hc, hcs⟩ := List.forall_mem_cons.1 h
    have hsize : c.utf8Size = 1 := by
      rw [Char.utf8Size_eq_one_iff, UInt32.le_iff_toNat_le]
      exact Nat.le_of_lt_succ hc
    rw [byteLength_cons, hsize, ih hcs, List.length_cons, Nat.add_comm]

/-- Of two fronts of a text the one with fewer bytes is a front of the other. -/
theorem prefix_of_byteLength_le {front other text : List Char} (h : front <+: text) (h' : other <+: text)
    (hle : byteLength front ≤ byteLength other) : front <+: other := by
  rcases List.prefix_or_prefix_of_prefix h h' with hfront | ⟨more, rfl⟩
  · exact hfront
  · cases more with
    | nil => simp
    | cons d more =>
      have := d.utf8Size_pos
      rw [byteLength_append, byteLength_cons] at hle
      omega

end Text

/-! ### The line of a character -/

namespace Line

variable {before body behind front back : List Char} {c : Char} {line : Line}

/-- A character that is no newline stands inside the line of its place, with a part of the line on either side. -/
theorem Lies.split_at (h : Lies before body behind (byteLength front) line) (hc : c ≠ '\n')
    (hsource : front ++ c :: back = before ++ (body ++ behind)) :
    ∃ lead rest, front = before ++ lead ∧ body = lead ++ c :: rest ∧ back = rest ++ behind ∧
      line.column = byteLength lead := by
  have hoffset := h.offset_eq
  -- the line starts no later than the character stands
  obtain ⟨lead, rfl⟩ : before <+: front :=
    Text.prefix_of_byteLength_le ⟨_, hsource.symm⟩ ⟨_, rfl⟩ (by omega)
  rw [Text.byteLength_append] at hoffset
  have hcolumn : line.column = byteLength lead := by omega
  rw [List.append_assoc] at hsource
  have hinside := List.append_cancel_left hsource
  -- and it goes on at least up to the character
  obtain ⟨more, rfl⟩ : lead <+: body :=
    Text.prefix_of_byteLength_le ⟨_, rfl⟩ ⟨_, hinside.symm⟩ (hcolumn ▸ h.column_le)
  rw [List.append_assoc] at hinside
  have hmore := List.append_cancel_left hinside
  cases more with
  | nil =>
    rw [List.nil_append] at hmore
    rcases h.stops with rfl | hhead
    · cases hmore
    · rw [← hmore, List.head?_cons, Option.some.injEq] at hhead
      exact absurd hhead hc
  | cons d rest =>
    rw [List.cons_append] at hmore
    obtain ⟨rfl, rfl⟩ := List.cons.inj hmore
    exact ⟨lead, rest, rfl, rfl, rfl, hcolumn⟩

/-- The line of a character that is no newline is what follows the last newline in front of it, the character, and what
stands behind it up to the next newline. -/
theorem exists_at?_eq_some (hc : c ≠ '\n') (front back : List Char) :
    ∃ line tail, at? (front ++ c :: back) (byteLength front) = some line ∧ (tail = [] ∨ tail = ['\n']) ∧
      line.text = last front ++ c :: (back.takeWhile (· ≠ '\n') ++ tail) ∧ line.column = byteLength (last front) := by
  have hsome : (at? (front ++ c :: back) (byteLength front)).isSome = true := by
    rw [at?_isSome_iff, Text.byteLength_append]
    omega
  obtain ⟨line, hline⟩ := Option.isSome_iff_exists.1 hsome
  obtain ⟨before, body, behind, hsource, hlies⟩ := exists_lies_of_at? hline
  obtain ⟨lead, rest, rfl, rfl, rfl, hcolumn⟩ := hlies.split_at hc hsource
  obtain ⟨hlead, hrest⟩ := not_or.1 (List.mem_append.not.1 hlies.inner)
  have hlast : last (before ++ lead) = lead := last_append hlies.starts hlead
  have hinner : '\n' ∉ rest := mt (List.mem_cons_of_mem c) hrest
  have htail : behind.take 1 = [] ∨ behind.take 1 = ['\n'] := by
    rcases hlies.stops with rfl | hhead
    · exact .inl rfl
    · obtain ⟨after, rfl⟩ := List.head?_eq_some_iff.1 hhead
      exact .inr rfl
  refine ⟨line, behind.take 1, hline, htail, ?_, by rw [hlast, hcolumn]⟩
  rw [hlast, Text.takeWhile_ne_append hinner hlies.stops, hlies.text, List.append_assoc, List.cons_append]

end Line

namespace Report

/-! ### Reading a report -/

/-- The last line of a text that ends with a newline, without that newline. -/
def lastLine (text : List Char) : List Char :=
  Line.last text.dropLast

/-- The lines of such a text in front of the last. -/
def earlierLines (text : List Char) : List Char :=
  text.dropLast.rdropWhile (· ≠ '\n')

/-- The number of dashes in front of the caret, in the last line of a report. -/
def dashes (report : String) : Nat :=
  ((lastLine report.toList).takeWhile (· ≠ '^')).count '-'

/-- The source line that a report shows, in the line above the last, behind the bar and a space. -/
def shown (report : String) : List Char :=
  ((lastLine (earlierLines report.toList)).dropWhile (· ≠ '|')).drop 2

section

variable {text line : List Char} (hline : '\n' ∉ line)

include hline

/-- The last line of a report that ends with a newline is what stands between its last two newlines. -/
theorem lastLine_append : lastLine (text ++ ['\n'] ++ (line ++ ['\n'])) = line := by
  rw [lastLine, ← List.append_assoc, List.dropLast_concat]
  exact Line.last_append (.inr (by simp)) hline

/-- Without its last line, a report still ends with the newline of the line before. -/
theorem earlierLines_append : earlierLines (text ++ ['\n'] ++ (line ++ ['\n'])) = text ++ ['\n'] := by
  rw [earlierLines, ← List.append_assoc, List.dropLast_concat]
  exact Text.rdropWhile_ne_append hline (.inr (by simp))

end

/-! ### The last two lines of a report -/

/-- The characters of the bar behind its margin. -/
theorem toList_bar (number : String) : (bar number).toList = List.replicate (number.length + 1) ' ' ++ ['|'] := by
  simp [bar]

/-- The line with the caret. -/
def caretLine (line : Line) : List Char :=
  (bar (toString line.number)).toList ++ ' ' :: (List.replicate (caretOffset line) '-' ++ ['^'])

/-- The line that shows the source. -/
def sourceLine (line : Line) : List Char :=
  (toString line.number).toList ++ ' ' :: '|' :: ' ' :: Text.trim (line.text.dropWhile (· = ' '))

/-- A drawing ends with the line that shows the source and the one with the caret. -/
theorem toList_append_drawing (top : String) (line : Line) :
    (top ++ drawing line).toList =
      top.toList ++ (bar (toString line.number)).toList ++ ['\n'] ++ (sourceLine line ++ ['\n']) ++
        (caretLine line ++ ['\n']) := by
  simp [drawing, sourceLine, caretLine]

/-- The line with the caret is one line, however far the caret is pushed to the right. -/
theorem newline_not_mem_caretLine (line : Line) : '\n' ∉ caretLine line := by
  simp [caretLine, toList_bar, List.mem_replicate]

/-- The number of a line is written in digits, so that no bar and no newline is mistaken for a part of
it. -/
theorem not_mem_toList_toString {c : Char} (hc : c.isDigit = false) (number : Nat) : c ∉ (toString number).toList := by
  rw [Nat.toString_eq_repr, Nat.toList_repr]
  intro hmem
  rw [Nat.isDigit_of_mem_toDigits (by decide) (by decide) hmem] at hc
  cases hc

/-- The dashes of a report are the columns to the left of its caret. -/
theorem dashes_append_drawing (top : String) (line : Line) : dashes (top ++ drawing line) = caretOffset line := by
  have hcaret : caretLine line =
      ((bar (toString line.number)).toList ++ ' ' :: List.replicate (caretOffset line) '-') ++ ['^'] := by
    simp [caretLine]
  have hfront : '^' ∉ (bar (toString line.number)).toList ++ ' ' :: List.replicate (caretOffset line) '-' := by
    simp [toList_bar, List.mem_replicate]
  rw [dashes, toList_append_drawing, ← List.append_assoc _ (sourceLine line),
    lastLine_append (newline_not_mem_caretLine line), hcaret, Text.takeWhile_ne_append hfront (.inr rfl), toList_bar]
  simp [List.count_append, List.count_replicate]

/-- What a report shows is the line of the source without the white space around it. -/
theorem shown_append_drawing {line : Line} (hline : '\n' ∉ Text.trim (line.text.dropWhile (· = ' '))) (top : String) :
    shown (top ++ drawing line) = Text.trim (line.text.dropWhile (· = ' ')) := by
  have hsource : '\n' ∉ sourceLine line := by
    have hnumber : '\n' ∉ (toString line.number).toList := not_mem_toList_toString (by decide) line.number
    simp only [sourceLine, List.mem_append, List.mem_cons, not_or]
    exact ⟨hnumber, by decide, by decide, by decide, hline⟩
  have hbar : '|' ∉ (toString line.number).toList ++ [' '] := by
    have hnumber : '|' ∉ (toString line.number).toList := not_mem_toList_toString (by decide) line.number
    rw [List.mem_append, not_or]
    exact ⟨hnumber, by decide⟩
  have hsplit : sourceLine line = ((toString line.number).toList ++ [' ']) ++
      '|' :: ' ' :: Text.trim (line.text.dropWhile (· = ' ')) := by
    simp [sourceLine]
  rw [shown, toList_append_drawing, ← List.append_assoc _ (sourceLine line),
    earlierLines_append (newline_not_mem_caretLine line), List.append_assoc _ (sourceLine line),
    lastLine_append hsource, hsplit, Text.dropWhile_ne_append hbar (.inr rfl)]
  rfl

/-! ### The caret -/

/-- The white space at the start of a line from the first that is no space on. It is not shown, and the caret is not
moved left by it. -/
def overlooked (lead : List Char) : List Char :=
  (lead.dropWhile (· = ' ')).takeWhile isBlank

/-- Nothing is overlooked in front of a line that starts with spaces alone. -/
theorem overlooked_eq_nil_iff (lead : List Char) : overlooked lead = [] ↔ ∀ c ∈ lead.takeWhile isBlank, c = ' ' := by
  induction lead with
  | nil => simp [overlooked]
  | cons c lead ih =>
    unfold overlooked at ih ⊢
    by_cases hspace : c = ' '
    · subst hspace
      rw [List.dropWhile_cons_of_pos (by simp), ih, List.takeWhile_cons_of_pos (by decide)]
      simp
    · rw [List.dropWhile_cons_of_neg (by simp [hspace])]
      by_cases hblank : isBlank c = true
      · rw [List.takeWhile_cons_of_pos hblank]
        simp [hspace]
      · rw [List.takeWhile_cons_of_neg hblank]
        simp

/-- The part of a line in front of a place, in which what is overlooked stands between the spaces and what is shown. -/
theorem length_lead (lead : List Char) :
    lead.length = leadingSpaces lead + (overlooked lead).length + (lead.dropWhile isBlank).length := by
  have hspaces := congrArg List.length (List.takeWhile_append_dropWhile (p := (· = ' ')) (l := lead))
  have hblank := congrArg List.length
    (List.takeWhile_append_dropWhile (p := isBlank) (l := lead.dropWhile (· = ' ')))
  rw [List.length_append] at hspaces hblank
  rw [Text.dropWhile_dropWhile_space] at hblank
  unfold leadingSpaces overlooked
  omega

/-- The report of a diagnostic on a character that is no white space, in any source. -/
theorem exists_of_render? {source title report : String} {diagnostic : Diagnostic} {front back : List Char} {c : Char}
    (hsource : source.toList = front ++ c :: back) (hoffset : diagnostic.position.offset.toNat = byteLength front)
    (hblank : isBlank c = false) (hreport : render? diagnostic source title = some report) :
    shown report = (Line.last front).dropWhile isBlank ++ c :: (back.takeWhile (· ≠ '\n')).rdropWhile isBlank ∧
      dashes report = byteLength (Line.last front) - leadingSpaces (Line.last front) := by
  have hnewline : c ≠ '\n' := by
    rintro rfl
    cases hblank
  have hspace : decide (c = ' ') = false := by
    rw [decide_eq_false_iff_not]
    rintro rfl
    cases hblank
  obtain ⟨line, tail, hline, htail, htext, hcolumn⟩ := Line.exists_at?_eq_some hnewline front back
  have htop : ∃ top, report = top ++ drawing line := by
    rw [render?, hsource, hoffset, hline] at hreport
    dsimp only at hreport
    split at hreport
    · exact ⟨_, (Option.some.inj hreport).symm⟩
    · cases hreport
  obtain ⟨top, rfl⟩ := htop
  -- a newline at the end of the line is cut off with the white space there
  have hend : (back.takeWhile (· ≠ '\n') ++ tail).rdropWhile isBlank =
      (back.takeWhile (· ≠ '\n')).rdropWhile isBlank := by
    rcases htail with rfl | rfl
    · rw [List.append_nil]
    · exact List.rdropWhile_concat_pos _ _ _ (by decide)
  have htrim : Text.trim (line.text.dropWhile (· = ' ')) =
      (Line.last front).dropWhile isBlank ++ c :: (back.takeWhile (· ≠ '\n')).rdropWhile isBlank := by
    rw [htext, Text.dropWhile_append_cons hspace, Text.trim_append_cons hblank, Text.dropWhile_dropWhile_space, hend]
  have hinside : '\n' ∉ Text.trim (line.text.dropWhile (· = ' ')) := by
    rw [htrim, List.mem_append, List.mem_cons, not_or, not_or]
    refine ⟨fun hmem => Line.newline_not_mem_last front ((List.dropWhile_suffix _).subset hmem), hnewline.symm, ?_⟩
    intro hmem
    have := List.mem_takeWhile_imp ((List.rdropWhile_prefix _ _).subset hmem)
    simp at this
  refine ⟨by rw [shown_append_drawing hinside, htrim], ?_⟩
  rw [dashes_append_drawing, caretOffset, hcolumn, leadingSpaces, leadingSpaces, htext,
    Text.takeWhile_append_cons hspace]

/-- In a source of ASCII characters, the report of a diagnostic on a character that is no white space shows the line of
that character without the white space around it. The dashes in front of the caret are the characters that are shown in
front of that character and those that are overlooked at the start of the line. So the caret stands under the character
exactly if the white space at the start of the line is spaces. -/
theorem dashes_of_render? {source title report : String} {diagnostic : Diagnostic} {front back : List Char} {c : Char}
    (hascii : ∀ d ∈ source.toList, d.toNat < 128) (hsource : source.toList = front ++ c :: back)
    (hoffset : diagnostic.position.offset.toNat = byteLength front) (hblank : isBlank c = false)
    (hreport : render? diagnostic source title = some report) :
    shown report = Text.trim (Line.last front ++ c :: back.takeWhile (· ≠ '\n')) ∧
    (∃ after, shown report = (Line.last front).dropWhile isBlank ++ c :: after) ∧
    dashes report = ((Line.last front).dropWhile isBlank).length + (overlooked (Line.last front)).length ∧
    (dashes report = ((Line.last front).dropWhile isBlank).length ↔
      ∀ d ∈ (Line.last front).takeWhile isBlank, d = ' ') := by
  obtain ⟨hshown, hdashes⟩ := exists_of_render? hsource hoffset hblank hreport
  have hlead : byteLength (Line.last front) = (Line.last front).length := by
    refine Text.byteLength_of_ascii fun d hd => hascii d ?_
    obtain ⟨before, hfront, -⟩ := Line.exists_append_last front
    rw [hsource, hfront]
    simp [hd]
  have hcount : dashes report =
      ((Line.last front).dropWhile isBlank).length + (overlooked (Line.last front)).length := by
    have := length_lead (Line.last front)
    omega
  refine ⟨by rw [hshown, Text.trim_append_cons hblank], ⟨_, hshown⟩, hcount, ?_⟩
  rw [← overlooked_eq_nil_iff, hcount, ← List.length_eq_zero_iff]
  omega

/-- Two spaces are taken into account, and the tab behind them is overlooked. -/
theorem dashes_of_render?_sample :
    let source := "  \t@"
    let diagnostic : Diagnostic := ⟨.unrecognised "@", .ofBytes "f" 3⟩
    let report := "Error: UnrecognisedToken\n-> f\n  |\n1 | @\n  | -^\n"
    (∀ d ∈ source.toList, d.toNat < 128) ∧ source.toList = [' ', ' ', '\t'] ++ '@' :: [] ∧
      diagnostic.position.offset.toNat = byteLength [' ', ' ', '\t'] ∧ isBlank '@' = false ∧
      render? diagnostic source "f" = some report ∧ shown report = ['@'] ∧ dashes report = 1 := by
  intro source diagnostic report
  have hsource : source.toList = [' ', ' ', '\t'] ++ '@' :: [] := by decide +kernel
  have hascii : ∀ d ∈ source.toList, d.toNat < 128 := by simp [hsource]
  have hoffset : diagnostic.position.offset.toNat = byteLength [' ', ' ', '\t'] := by decide
  have hblank : isBlank '@' = false := by decide
  have hreport : render? diagnostic source "f" = some report := by decide +kernel
  obtain ⟨hshown, -, hdashes, -⟩ := dashes_of_render? hascii hsource hoffset hblank hreport
  exact ⟨hascii, hsource, hoffset, hblank, hreport, hshown, hdashes⟩

/-- Behind a tab the caret does not stand under its character. -/
theorem dashes_of_render?_ne :
    ¬ ∀ (source title report : String) (diagnostic : Diagnostic) (front back : List Char) (c : Char),
      (∀ d ∈ source.toList, d.toNat < 128) → source.toList = front ++ c :: back →
        diagnostic.position.offset.toNat = byteLength front → isBlank c = false →
        render? diagnostic source title = some report →
        ∃ before after, shown report = before ++ c :: after ∧ dashes report = before.length := by
  intro h
  have hreport : render? ⟨.unrecognised "@", .ofBytes "f" 1⟩ "\t@" "f" =
      some "Error: UnrecognisedToken\n-> f\n  |\n1 | @\n  | -^\n" := by decide +kernel
  have hsource : "\t@".toList = ['\t'] ++ '@' :: [] := by decide +kernel
  have hascii : ∀ d ∈ "\t@".toList, d.toNat < 128 := by simp [hsource]
  obtain ⟨before, after, hshown, hdashes⟩ := h _ _ _ _ _ _ _ hascii hsource (by decide) (by decide) hreport
  have hline : shown "Error: UnrecognisedToken\n-> f\n  |\n1 | @\n  | -^\n" = ['@'] := by decide +kernel
  have hcount : dashes "Error: UnrecognisedToken\n-> f\n  |\n1 | @\n  | -^\n" = 1 := by decide +kernel
  have hlength := congrArg List.length hshown
  rw [hline, List.length_append, List.length_cons] at hlength
  rw [hcount] at hdashes
  simp only [List.length_cons, List.length_nil] at hlength
  omega

end Report

end BraceLang
