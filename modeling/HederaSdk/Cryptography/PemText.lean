import HederaSdk.Library.Lines
import Mathlib.Data.List.Forall2
import Mathlib.Data.List.Infix

/-!
# PEM texts

A text of sections, each between the lines of its label. What is read of it is the text without
its markers and its line ends, or the lines at some places.
-/

namespace HederaSdk

open Library

namespace Pem

/-- Where `.` does not match. -/
def lineTerminators : List Char := ['\n', '\r', '\u2028', '\u2029']

def dashes : List Char := ['-', '-', '-', '-', '-']

/-- `-----BEGIN ` -/
def beginMark : List Char := dashes ++ ['B', 'E', 'G', 'I', 'N', ' ']

/-- `-----END ` -/
def endMark : List Char := dashes ++ ['E', 'N', 'D', ' ']

/-! ## Cutting up a text -/

/-- The length of what `(.*)-----` matches at the front. -/
def closing : List Char → Option Nat
  | [] => none
  | c :: rest =>
      if c ∈ lineTerminators then none
      else
        match closing rest with
        | some n => some (n + 1)
        | none => if dashes.isPrefixOf (c :: rest) then some dashes.length else none

def marker (mark text : List Char) : Option Nat :=
  if mark.isPrefixOf text then (closing (text.drop mark.length)).map (mark.length + ·) else none

/-- The length of what `-----BEGIN (.*)-----|-----END (.*)-----|\n|\r` matches at the front. -/
def matched (text : List Char) : Option Nat :=
  match marker beginMark text, marker endMark text with
  | some n, _ => some n
  | none, some n => some n
  | none, none => if text.head? = some '\n' ∨ text.head? = some '\r' then some 1 else none

/-- `replace` of every match by nothing, with so many characters of a match still to come. -/
def replace : Nat → List Char → List Char
  | _, [] => []
  | skip + 1, _ :: rest => replace skip rest
  | 0, c :: rest =>
      match matched (c :: rest) with
      | some n => replace (n - 1) rest
      | none => c :: replace 0 rest

/-- What is taken for base64. -/
def pemKeyData (pem : List Char) : List Char := replace 0 pem

/-- `pemLines.slice(4, pemLines.length - 1).join("")` -/
def fixedLines (pem : List Char) : List Char := ((pem.splitOn '\n').dropLast.drop 4).flatten

def includes (text pattern : List Char) : Bool := decide (pattern <:+: text)

/-- `EC PRIVATE KEY` -/
def ecLabel : List Char := ['E', 'C', ' ', 'P', 'R', 'I', 'V', 'A', 'T', 'E', ' ', 'K', 'E', 'Y']

/-- `pem.includes("BEGIN EC PRIVATE KEY")` -/
def isEcdsa (pem : List Char) : Bool := includes pem (['B', 'E', 'G', 'I', 'N', ' '] ++ ecLabel)

end Pem

/-! ## Files -/

open Pem

/-- A line that is none of the markers. -/
def IsPemLine (line : List Char) : Prop := '\n' ∉ line ∧ '\r' ∉ line ∧ ¬ dashes <:+: line

instance decidableIsPemLine (line : List Char) : Decidable (IsPemLine line) := by
  unfold IsPemLine
  infer_instance

def IsBase64 (c : Char) : Prop := c.isAlphanum = true ∨ c = '+' ∨ c = '/' ∨ c = '='

instance decidableIsBase64 (c : Char) : Decidable (IsBase64 c) := by
  unfold IsBase64
  infer_instance

/-- The headers come before the data, with an empty line between them. -/
structure PemSection where
  label : List Char
  headers : List (List Char) := []
  lines : List (List Char)
  labelled : ∀ c ∈ label, c ∉ lineTerminators
  header : ∀ line ∈ headers, IsPemLine line
  base64 : ∀ line ∈ lines, ∀ c ∈ line, IsBase64 c

namespace PemSection

def beginLine (part : PemSection) : List Char := beginMark ++ part.label ++ dashes

def endLine (part : PemSection) : List Char := endMark ++ part.label ++ dashes

def content (part : PemSection) : List (List Char) :=
  if part.headers = [] then part.lines else part.headers ++ [] :: part.lines

def textLines (part : PemSection) : List (List Char) := part.beginLine :: part.content ++ [part.endLine]

/-- The base64 text of the section. -/
def data (part : PemSection) : List Char := part.lines.flatten

/-- Some line has `BEGIN EC PRIVATE KEY` in it. -/
def MentionsEc (part : PemSection) : Prop :=
  ∃ line ∈ part.textLines, ['B', 'E', 'G', 'I', 'N', ' '] ++ ecLabel <:+: line

end PemSection

/-- How a text is laid out around its sections. -/
structure PemFile where
  sections : List PemSection
  crlf : Bool
  finalNewline : Bool

namespace PemFile

/-- What stands on a line before its `\n`. -/
def carriage (file : PemFile) : List Char := if file.crlf then ['\r'] else []

def eol (file : PemFile) : List Char := file.carriage ++ ['\n']

/-- Behind a final newline there is an empty line. -/
def textLines (file : PemFile) : List (List Char) :=
  file.sections.flatMap PemSection.textLines ++ if file.finalNewline then [[]] else []

def text (file : PemFile) : List Char := file.eol.intercalate file.textLines

/-- What stands between the markers of all sections. -/
def body (file : PemFile) : List Char := (file.sections.flatMap PemSection.content).flatten

end PemFile

namespace Pem

/-! ## Markers -/

/-- The end of a line. -/
def Ended (tail : List Char) : Prop := ∀ c ∈ tail.head?, c = '\n' ∨ c = '\r'

variable {label line tail : List Char}

theorem Ended.cases (ended : Ended tail) :
    tail = [] ∨ ∃ rest, tail = '\n' :: rest ∨ tail = '\r' :: rest := by
  cases tail with
  | nil => exact .inl rfl
  | cons c rest => rcases ended c rfl with rfl | rfl <;> simp

theorem closing_append (named : ∀ c ∈ label, c ∉ lineTerminators) (ended : Ended tail) :
    closing (label ++ (dashes ++ tail)) = some (label.length + dashes.length) := by
  induction label with
  | nil => rcases ended.cases with rfl | ⟨rest, rfl | rfl⟩ <;> simp [closing, dashes, lineTerminators]
  | cons c label inductionHypothesis =>
      have behind := inductionHypothesis fun d member => named d (List.mem_cons_of_mem c member)
      rw [List.cons_append, closing, if_neg (named c List.mem_cons_self), behind]
      simp only [List.length_cons]
      rw [Nat.add_right_comm]

theorem marker_append (mark : List Char) (named : ∀ c ∈ label, c ∉ lineTerminators) (ended : Ended tail) :
    marker mark (mark ++ (label ++ (dashes ++ tail))) = some (mark ++ label ++ dashes).length := by
  have atFront : mark.isPrefixOf (mark ++ (label ++ (dashes ++ tail))) = true :=
    List.isPrefixOf_iff_prefix.mpr (List.prefix_append _ _)
  rw [marker, if_pos atFront, List.drop_left, closing_append named ended, Option.map_some, List.length_append,
    List.length_append, Nat.add_assoc]

theorem marker_of_line {mark more : List Char} (starts : mark = dashes ++ more) (plain : ¬ dashes <:+: line)
    (ended : Ended tail) : marker mark (line ++ tail) = none := by
  have apart : ¬ mark.isPrefixOf (line ++ tail) = true := by
    rw [List.isPrefixOf_iff_prefix, starts]
    intro atFront
    have front : dashes <+: line ++ tail := (List.prefix_append _ _).trans atFront
    rcases ended.cases with rfl | ⟨rest, rfl | rfl⟩
    · rw [List.append_nil] at front
      exact plain front.isInfix
    · exact plain ((Lines.prefix_append_cons_iff (by decide) line rest).mp front).isInfix
    · exact plain ((Lines.prefix_append_cons_iff (by decide) line rest).mp front).isInfix
  rw [marker, if_neg apart]

/-! ## Lines -/

theorem replace_skip (taken rest : List Char) : replace taken.length (taken ++ rest) = replace 0 rest := by
  induction taken with
  | nil => rfl
  | cons c taken inductionHypothesis => exact inductionHypothesis

theorem replace_matched {taken : List Char} (nonempty : taken ≠ []) (rest : List Char)
    (found : matched (taken ++ rest) = some taken.length) : replace 0 (taken ++ rest) = replace 0 rest := by
  cases taken with
  | nil => exact absurd rfl nonempty
  | cons c taken =>
      rw [List.cons_append] at found ⊢
      rw [replace, found]
      exact replace_skip taken rest

/-- Of a line the text keeps what is given. -/
def Leaves (line kept : List Char) : Prop := ∀ tail, Ended tail → replace 0 (line ++ tail) = kept ++ replace 0 tail

theorem leaves_beginLine (part : PemSection) : Leaves part.beginLine [] := by
  intro tail ended
  refine replace_matched (List.append_ne_nil_of_left_ne_nil (by simp [beginMark, dashes]) _) tail ?_
  have found := marker_append beginMark part.labelled ended
  rw [List.append_assoc, List.append_assoc, matched, found]

theorem leaves_endLine (part : PemSection) : Leaves part.endLine [] := by
  intro tail ended
  refine replace_matched (List.append_ne_nil_of_left_ne_nil (by simp [endMark, dashes]) _) tail ?_
  have found := marker_append endMark part.labelled ended
  have other : marker beginMark (endMark ++ (part.label ++ (dashes ++ tail))) = none := rfl
  rw [List.append_assoc, List.append_assoc, matched, other, found]

theorem leaves_line (plain : IsPemLine line) : Leaves line line := by
  intro tail ended
  obtain ⟨noLf, noCr, noDashes⟩ := plain
  induction line with
  | nil => rfl
  | cons c line inductionHypothesis =>
      have rest := inductionHypothesis (List.not_mem_of_not_mem_cons noLf) (List.not_mem_of_not_mem_cons noCr)
        fun inside => noDashes (inside.trans (List.suffix_cons c line).isInfix)
      have unmatched : matched (c :: line ++ tail) = none := by
        have noBegin := @marker_of_line _ _ beginMark _ rfl noDashes ended
        have noEndMark := @marker_of_line _ _ endMark _ rfl noDashes ended
        rw [matched, noBegin, noEndMark]
        have noEnd : ¬ ((c :: line ++ tail).head? = some '\n' ∨ (c :: line ++ tail).head? = some '\r') := by
          rintro (newline | newline)
          · exact noLf (Option.some.inj newline ▸ List.mem_cons_self)
          · exact noCr (Option.some.inj newline ▸ List.mem_cons_self)
        rw [if_neg noEnd]
      rw [List.cons_append] at unmatched ⊢
      rw [replace, unmatched, List.cons_append, rest]

theorem replace_eol (file : PemFile) (rest : List Char) : replace 0 (file.eol ++ rest) = replace 0 rest := by
  unfold PemFile.eol PemFile.carriage
  split <;> rfl

theorem ended_eol (file : PemFile) (rest : List Char) : Ended (file.eol ++ rest) := by
  unfold PemFile.eol PemFile.carriage
  split <;> simp [Ended]

theorem replace_intercalate (file : PemFile) {lines kept : List (List Char)} (all : List.Forall₂ Leaves lines kept) :
    replace 0 (file.eol.intercalate lines) = kept.flatten := by
  induction all with
  | nil => rfl
  | @cons line keep lines kept one others inductionHypothesis =>
      cases others with
      | nil =>
          have alone := one [] (by simp [Ended])
          rw [List.append_nil] at alone
          rw [List.intercalate_singleton, alone]
          rfl
      | @cons next keepNext lines kept second others =>
          rw [List.intercalate_cons_cons, List.append_assoc, one _ (ended_eol file _), replace_eol,
            inductionHypothesis, ← List.flatten_cons]

end Pem

namespace PemSection

variable (part : PemSection)

theorem plain_line {line : List Char} (member : line ∈ part.lines) : IsPemLine line := by
  have symbol := part.base64 line member
  refine ⟨fun newline => ?_, fun newline => ?_, fun inside => ?_⟩
  · exact absurd (symbol _ newline) (by decide)
  · exact absurd (symbol _ newline) (by decide)
  · exact absurd (symbol _ (inside.subset List.mem_cons_self)) (by decide)

theorem plain_content : ∀ line ∈ part.content, IsPemLine line := by
  intro line member
  unfold content at member
  split at member
  · exact part.plain_line member
  · rcases List.mem_append.mp member with header | behind
    · exact part.header line header
    · rcases List.mem_cons.mp behind with rfl | data
      · decide
      · exact part.plain_line data

theorem leaves_textLines : List.Forall₂ Leaves part.textLines ([] :: part.content ++ [[]]) := by
  refine .cons (leaves_beginLine part) (List.rel_append ?_ (.cons (leaves_endLine part) .nil))
  exact List.forall₂_same.mpr fun line member => leaves_line (part.plain_content line member)

end PemSection

namespace PemFile

variable (file : PemFile)

/-- The markers and the line ends go, and what stands between them stays, with the headers. -/
theorem pemKeyData_text : pemKeyData file.text = file.body := by
  have sections : List.Forall₂ Leaves (file.sections.flatMap PemSection.textLines)
      (file.sections.flatMap fun part => [] :: part.content ++ [[]]) :=
    List.rel_flatMap (List.forall₂_same.mpr fun _ _ => rfl) fun part _ same => same ▸ part.leaves_textLines
  have last : List.Forall₂ Leaves (if file.finalNewline then [[]] else []) (if file.finalNewline then [[]] else []) := by
    refine List.forall₂_same.mpr fun line member => leaves_line ?_
    split at member
    · rw [List.mem_singleton.mp member]
      decide
    · cases member
  have empty : (if file.finalNewline then [[]] else [] : List (List Char)).flatten = [] := by split <;> rfl
  have kept : (file.sections.flatMap fun part => [] :: part.content ++ [[]]).flatten = file.body := by
    unfold body
    induction file.sections with
    | nil => rfl
    | cons part rest inductionHypothesis =>
        rw [List.flatMap_cons, List.flatMap_cons, List.flatten_append, List.flatten_append, inductionHypothesis]
        simp
  rw [pemKeyData, text, textLines, replace_intercalate file (List.rel_append sections last), List.flatten_append,
    kept, empty, List.append_nil]

theorem newline_notMem_textLines : ∀ line ∈ file.textLines, '\n' ∉ line := by
  have mark : ∀ {label : List Char}, (∀ c ∈ label, c ∉ lineTerminators) → '\n' ∉ label := by
    intro label named member
    exact named _ member (by decide)
  intro line member
  rcases List.mem_append.mp member with ofSection | last
  · obtain ⟨part, -, inside⟩ := List.mem_flatMap.mp ofSection
    rcases List.mem_append.mp inside with before | ending
    · rcases List.mem_cons.mp before with rfl | content
      · simp [PemSection.beginLine, beginMark, dashes, mark part.labelled]
      · exact (part.plain_content line content).1
    · rw [List.mem_singleton.mp ending]
      simp [PemSection.endLine, endMark, dashes, mark part.labelled]
  · split at last
    · simp [List.mem_singleton.mp last]
    · cases last

/-- What is taken from fixed lines is all but the first four lines and the last one. -/
theorem fixedLines_text :
    fixedLines file.text = ((file.textLines.dropLast.map (· ++ file.carriage)).drop 4).flatten := by
  have other : '\n' ∉ file.carriage := by
    unfold carriage
    split <;> decide
  by_cases nonempty : file.textLines = []
  · rw [fixedLines, text, nonempty]
    rfl
  · have split := Lines.splitOn_intercalate nonempty file.newline_notMem_textLines other
    have lines := Lines.endLines_eq file.carriage file.textLines.dropLast (file.textLines.getLast nonempty)
    rw [List.dropLast_append_getLast] at lines
    rw [fixedLines, text, eol, split, lines, List.dropLast_concat]

/-- The kind of key that is looked for does not depend on the layout. -/
theorem isEcdsa_text : isEcdsa file.text = true ↔ ∃ part ∈ file.sections, part.MentionsEc := by
  have apart : ∀ c ∈ file.eol, c ∉ ['B', 'E', 'G', 'I', 'N', ' '] ++ ecLabel := by
    unfold eol carriage
    split <;> simp [ecLabel]
  have inLines := Lines.infix_intercalate_iff apart (List.append_ne_nil_of_right_ne_nil _ (List.cons_ne_nil _ _))
    (List.cons_ne_nil _ _) file.textLines
  rw [isEcdsa, includes, decide_eq_true_iff, text, inLines]
  constructor
  · rintro ⟨line, member, inside⟩
    rcases List.mem_append.mp member with ofSection | last
    · obtain ⟨part, among, here⟩ := List.mem_flatMap.mp ofSection
      exact ⟨part, among, line, here, inside⟩
    · split at last
      · rw [List.mem_singleton.mp last] at inside
        exact absurd (List.infix_nil.mp inside) (List.cons_ne_nil _ _)
      · cases last
  · rintro ⟨part, among, line, here, inside⟩
    exact ⟨line, List.mem_append_left _ (List.mem_flatMap.mpr ⟨part, among, here⟩), inside⟩

end PemFile

end HederaSdk
