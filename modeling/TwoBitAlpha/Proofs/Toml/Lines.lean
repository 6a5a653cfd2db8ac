import Mathlib.Data.List.Forall2
import TwoBitAlpha.Proofs.Toml.Number
import TwoBitAlpha.Toml.Document

/-!
Documents that are written plainly, line by line.

A comment leaves nothing, a bare key with a blank on each side of its equals sign is read up to that sign, a text
without escapes is read as it stands between its quotation marks, and an array is read item by item if each item is
read where a comma or the closing bracket follows.
-/

namespace TwoBitAlpha.Toml

section
variable {s rest : List Char}

theorem skipBlank_cons {c : Char} (visible : isBlank c = false) (s : List Char) : skipBlank (c :: s) = c :: s :=
  List.dropWhile_cons_of_neg (Bool.eq_false_iff.mp visible)

theorem lines_nil : lines [] = some [] := by
  rw [lines]
  rfl

theorem lines_cons {l : Line} (visible : skipBlank s = s) (read : line s = some (l, rest))
    (shorter : rest.length < s.length) : lines s = (lines rest).map (l :: ·) := by
  rw [lines, visible]
  split
  · cases shorter
  · rw [read]
    exact if_pos shorter

theorem endLine?_comment {body : List Char} (plain : ∀ c ∈ body, isPlain c = true) (rest : List Char) :
    endLine? ('#' :: (body ++ '\n' :: rest)) = some rest := by
  have after : (body ++ '\n' :: rest).dropWhile isPlain = '\n' :: rest := List.dropWhile_append_of_pos plain
  have comment : skipComment (skipBlank ('#' :: (body ++ '\n' :: rest))) = '\n' :: rest := after
  rw [endLine?, comment]
  rfl

theorem lines_comment {body : List Char} (plain : ∀ c ∈ body, isPlain c = true) (rest : List Char) :
    lines ('#' :: (body ++ '\n' :: rest)) = (lines rest).map (.blank :: ·) := by
  apply lines_cons (skipBlank_cons rfl _)
  · change (endLine? ('#' :: (body ++ '\n' :: rest))).map (Line.blank, ·) = _
    rw [endLine?_comment plain]
    rfl
  · rw [List.length_cons, List.length_append, List.length_cons]
    omega

/-- Comments in front of a document change nothing in what it is gathered to. -/
theorem sections_comments {comments : List (List Char)} (plain : ∀ body ∈ comments, ∀ c ∈ body, isPlain c = true)
    (rest : List Char) :
    (lines (comments.flatMap (fun body => '#' :: (body ++ ['\n'])) ++ rest)).map sections =
      (lines rest).map sections := by
  induction comments with
  | nil => rfl
  | cons body comments ih =>
      have others := ih fun other member => plain other (List.mem_cons_of_mem _ member)
      have first := lines_comment (plain body (List.mem_cons_self ..))
      rw [← others, List.flatMap_cons]
      simp only [List.cons_append, List.append_assoc, List.nil_append, first, Option.map_map]
      rfl

end

section
variable {s rest taken name : List Char}

theorem untilQuote_cons {quote : Char} {unit : Reader (List Char)} {shrinks : Shrinks unit}
    (inside : s.head? ≠ some quote) (read : unit s = some (taken, rest)) :
    untilQuote quote unit shrinks s =
      (untilQuote quote unit shrinks rest).map fun (more, rest) => (taken ++ more, rest) := by
  rw [untilQuote, if_neg inside]
  split
  · rename_i missing
    rw [read] at missing
    cases missing
  · rename_i found
    rw [read] at found
    cases found
    rfl

/-- A character that stands for itself between double quotation marks. -/
def isVerbatim (c : Char) : Bool := isPlain c && c != '"' && c != '\\'

theorem untilQuote_verbatim (verbatim : ∀ c ∈ name, isVerbatim c = true) (rest : List Char) :
    untilQuote '"' basicUnit shrinks_basicUnit (name ++ '"' :: rest) = some (name, rest) := by
  induction name with
  | nil =>
      rw [untilQuote]
      rfl
  | cons c name ih =>
      have first := verbatim c (List.mem_cons_self ..)
      have plain : (isPlain c && c != '"') = true := (Bool.and_eq_true_iff.mp first).1
      have unit : basicUnit (c :: (name ++ '"' :: rest)) = some ([c], name ++ '"' :: rest) := by
        rw [basicUnit, if_neg (ne_of_class first rfl), if_pos plain]
      have inside : (c :: (name ++ '"' :: rest)).head? ≠ some '"' :=
        fun same => ne_of_class first rfl (Option.some.inj same)
      rw [List.cons_append, untilQuote_cons inside unit, ih fun d member => verbatim d (List.mem_cons_of_mem _ member)]
      rfl

/-- Two marks are an empty text, unless a third one follows. -/
theorem quotation_verbatim (verbatim : ∀ c ∈ name, isVerbatim c = true) {next : Char} (ends : next ≠ '"')
    (more : List Char) :
    quotation ('"' :: (name ++ '"' :: next :: more)) = some (String.ofList name, next :: more) := by
  have single : ∀ tail, name ++ '"' :: next :: more ≠ '"' :: '"' :: tail := by
    intro tail same
    cases name with
    | nil => exact ends (List.cons.inj (List.cons.inj same).2).1
    | cons c name => exact cons_ne_cons (verbatim c (List.mem_cons_self ..)) rfl same
  simp only [quotation, untilQuote_verbatim verbatim]
  rfl

theorem value_quotation (depth : Nat) (rest : List Char) :
    value depth ('"' :: rest) = (quotation ('"' :: rest)).map fun (t, rest) => (.text t, rest) := by
  cases depth with
  | zero => rfl
  | succ depth => rfl

end

section
variable {item : Reader Value} {texts : List (List Char)} {values : List Value} {text rest : List Char} {v : Value}

/-- A text that is read as a value where it is an item of an array. -/
structure IsItem (item : Reader Value) (text : List Char) (v : Value) : Prop where
  begins : ∃ c tail, text = c :: tail ∧ isBlank c = false ∧ c ∉ ['\n', '\r', '#', ']']
  read : ∀ mark ∈ [',', ']'], ∀ more, item (text ++ mark :: more) = some (v, mark :: more)

theorem skipFiller_item (isItem : IsItem item text v) (rest : List Char) :
    skipFiller false (text ++ rest) = some (text ++ rest) := by
  obtain ⟨c, tail, rfl, visible, other⟩ := isItem.begins
  simp only [List.mem_cons, not_or] at other
  obtain ⟨newline, carriage, comment, _⟩ := other
  rw [List.cons_append, skipFiller, if_neg Bool.false_ne_true, if_neg (Bool.eq_false_iff.mp visible),
    if_neg comment]
  · exact newline
  · exact fun _ same _ => carriage same

theorem IsItem.ne_bracket (isItem : IsItem item text v) (rest tail : List Char) : text ++ rest ≠ ']' :: tail := by
  obtain ⟨c, front, rfl, _, other⟩ := isItem.begins
  intro same
  rw [(List.cons.inj same).1] at other
  exact other (by decide)

/-- What may stand before an item: nothing, or the blank after a comma. -/
def leads : List (List Char) := [[], [' ']]

theorem skipFiller_lead {lead : List Char} (member : lead ∈ leads) (s : List Char) :
    skipFiller false (lead ++ s) = skipFiller false s := by
  simp only [leads, List.mem_cons, List.not_mem_nil, or_false] at member
  rcases member with rfl | rfl
  · rfl
  · rfl

section
variable {lead more : List Char} (member : lead ∈ leads) (isItem : IsItem item text v)
include member isItem

theorem arrayItems_last : arrayItems item (lead ++ (text ++ ']' :: rest)) = some ([v], rest) := by
  have filler := (skipFiller_lead member _).trans (skipFiller_item isItem (']' :: rest))
  have read := isItem.read ']' (by decide) rest
  have bracket : ∀ tail, text ++ ']' :: rest ≠ ']' :: tail := isItem.ne_bracket _
  rw [arrayItems, filler]
  simp only [Option.bind_eq_bind, Option.bind_some]
  rw [read]
  rfl

theorem arrayItems_next :
    arrayItems item (lead ++ (text ++ ',' :: more)) = (arrayItems item more).map fun (vs, rest) => (v :: vs, rest) := by
  have filler := (skipFiller_lead member _).trans (skipFiller_item isItem (',' :: more))
  have read := isItem.read ',' (by decide) more
  have bracket : ∀ tail, text ++ ',' :: more ≠ ']' :: tail := isItem.ne_bracket _
  have shorter : more.length < (lead ++ (text ++ ',' :: more)).length := by
    rw [List.length_append, List.length_append, List.length_cons]
    omega
  rw [arrayItems, filler]
  simp only [Option.bind_eq_bind, Option.bind_some]
  rw [read]
  exact if_pos shorter

end

theorem arrayItems_intercalate {lead : List Char} (member : lead ∈ leads)
    (each : List.Forall₂ (IsItem item) (text :: texts) (v :: values)) :
    arrayItems item (lead ++ ([',', ' '].intercalate (text :: texts) ++ ']' :: rest)) = some (v :: values, rest) := by
  induction texts generalizing lead text v values with
  | nil =>
      cases each with
      | cons isItem none =>
          cases none
          rw [List.intercalate_singleton]
          exact arrayItems_last member isItem
  | cons text' texts ih =>
      cases each with
      | cons isItem others =>
          obtain ⟨v', values, _, _, rfl⟩ := List.forall₂_cons_left_iff.mp others
          rw [List.intercalate_cons_cons, List.append_assoc, List.append_assoc]
          change arrayItems item (lead ++ (text ++ ',' :: ([' '] ++ _))) = _
          rw [arrayItems_next member isItem, ih (by decide) others]
          rfl

theorem value_array (depth : Nat) (each : List.Forall₂ (IsItem (value depth)) texts values) (nonempty : texts ≠ [])
    (rest : List Char) :
    value (depth + 1) ('[' :: ([',', ' '].intercalate texts ++ ']' :: rest)) = some (.array values, rest) := by
  have items : arrayItems (value depth) ([',', ' '].intercalate texts ++ ']' :: rest) = some (values, rest) := by
    cases each with
    | nil => exact absurd rfl nonempty
    | cons isItem others => exact arrayItems_intercalate (List.mem_cons_self .. : [] ∈ leads) (.cons isItem others)
  change (arrayItems (value depth) ([',', ' '].intercalate texts ++ ']' :: rest)).map _ = _
  rw [items]
  rfl

end

section
variable {c : Char} {name front rest text : List Char} {v : Value}

/-- A bare key ends at the blank in front of its equals sign. -/
theorem key_bare (bare : ∀ d ∈ c :: front, isBareKeyChar d = true) (rest : List Char) :
    key (c :: front ++ ' ' :: '=' :: rest) = some (⟨[], String.ofList (c :: front)⟩, '=' :: rest) := by
  have first := bare c (List.mem_cons_self ..)
  have taken : (c :: front ++ ' ' :: '=' :: rest).takeWhile isBareKeyChar = c :: front := by
    rw [List.takeWhile_append_of_pos bare, List.takeWhile_cons_of_neg (by decide), List.append_nil]
  have left : (c :: front ++ ' ' :: '=' :: rest).dropWhile isBareKeyChar = ' ' :: '=' :: rest := by
    rw [List.dropWhile_append_of_pos bare, List.dropWhile_cons_of_neg (by decide)]
  have part : keyPart (c :: front ++ ' ' :: '=' :: rest) = some (String.ofList (c :: front), ' ' :: '=' :: rest) := by
    unfold keyPart
    split
    · rename_i quote
      exact absurd quote (cons_ne_cons first rfl)
    · rename_i quote
      exact absurd quote (cons_ne_cons first rfl)
    · rw [taken, left]
      rfl
  have parts : keyParts (c :: front ++ ' ' :: '=' :: rest) = some ([String.ofList (c :: front)], '=' :: rest) := by
    rw [keyParts, List.cons_append, skipBlank_cons (isBlank_of_class first rfl rfl), ← List.cons_append, part]
    rfl
  rw [key, parts]
  rfl

theorem line_bare (bare : isBareKeyChar c = true) (s : List Char) :
    line (c :: s) =
      assignment (value depthLimit) (c :: s) >>= fun (a, rest) => (endLine? rest).map (.assignment a, ·) := by
  unfold line
  split
  · rename_i mark
    exact absurd mark (cons_ne_cons bare rfl)
  · rename_i mark
    exact absurd mark (cons_ne_cons bare rfl)
  · rename_i mark
    exact absurd mark (cons_ne_cons bare rfl)
  · rename_i mark
    exact absurd mark (cons_ne_cons bare rfl)
  · rfl

/-- One line that gives a value to a bare key. -/
theorem lines_assignment (bare : ∀ d ∈ c :: front, isBareKeyChar d = true) (visible : skipBlank text = text)
    (read : value depthLimit text = some (v, '\n' :: rest)) (shorter : rest.length < text.length) :
    lines (c :: front ++ ' ' :: '=' :: ' ' :: text) =
      (lines rest).map (.assignment (⟨[], String.ofList (c :: front)⟩, v) :: ·) := by
  have first := bare c (List.mem_cons_self ..)
  have taken : assignment (value depthLimit) (c :: front ++ ' ' :: '=' :: ' ' :: text) =
      some ((⟨[], String.ofList (c :: front)⟩, v), '\n' :: rest) := by
    have blank : skipBlank (' ' :: text) = text := visible
    rw [assignment, key_bare bare]
    change (value depthLimit (skipBlank (' ' :: text)) >>= _) = _
    rw [blank, read]
    rfl
  apply lines_cons
  · exact skipBlank_cons (isBlank_of_class first rfl rfl) _
  · rw [List.cons_append, line_bare first, ← List.cons_append, taken]
    rfl
  · simp only [List.length_append, List.length_cons]
    omega

end

end TwoBitAlpha.Toml
