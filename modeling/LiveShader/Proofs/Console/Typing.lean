import LiveShader.Console.Entry
import LiveShader.Console.Prompt
import LiveShader.Proofs.Store.Completeness
import LiveShader.Proofs.Text.ByteOrder
import LiveShader.Proofs.Text.Lines
/-!
# Proofs.Console.Typing — which of the listed names can be typed at the prompt

A line loads the text between its blanks, unless that is empty or a word of the prompt (`parse_eq_load_iff`).  So a
listed name is loaded by its own text if it is no such word and has no blank at either end, and some input loads it if
there is no newline in it besides (`list_typed_iff`).  Files may have any other name as well (`list_untypable`).
-/
namespace LiveShader

namespace Text

theorem trim_eq_self_iff {s : String} :
    trim s = s ↔ (∀ c ∈ s.toList.head?, isBlank c = false) ∧ ∀ c ∈ s.toList.getLast?, isBlank c = false := by
  rw [trim, ← String.toList_inj, String.toList_ofList, trimChars_eq_iff]
  exact ⟨fun h => ⟨h.head, h.last⟩, fun h => ⟨⟨[], [], by simp⟩, h.1, h.2⟩⟩

theorem lines_of_not_mem {s : List Char} (hne : s ≠ []) (h : '\n' ∉ s) : lines s = [s] := by
  induction s with
  | nil => exact absurd rfl hne
  | cons c cs ih =>
    rw [List.mem_cons, not_or] at h
    obtain ⟨hc, hcs⟩ := h
    have hend : ¬ (c = '\r' ∧ cs.head? = some '\n') := fun h => hcs (List.mem_of_head? h.2)
    rw [lines, if_neg (Ne.symm hc), if_neg hend]
    by_cases hnil : cs = []
    · rw [hnil]
      rfl
    · rw [ih hnil hcs]
      rfl

end Text

namespace Console

variable {σ : Type} {name line : String}

/-- The words that the prompt takes for something else than a name. -/
def promptWords : List String := ["quit", "exit", "list", "help"]

/-- **What a line loads** is the text between its blanks, unless that is empty or a word of the prompt. -/
theorem parse_eq_load_iff :
    PromptCommand.parse (some line) = .load name ↔ Text.trim line = name ∧ name ≠ "" ∧ name ∉ promptWords := by
  unfold PromptCommand.parse
  simp only [promptWords, List.mem_cons, List.not_mem_nil, or_false, not_or]
  grind

/-! ## Lines of input -/

theorem newline_not_mem_of_text {text : String} {entry : Entry σ} (h : entry ∈ entriesOfText text)
    (hline : entry.line = .ok line) : '\n' ∉ line.toList := by
  obtain ⟨l, hl, rfl⟩ := List.mem_map.1 h
  obtain rfl : String.ofList l = line := by simpa [Entry.ofLine] using hline
  rw [String.toList_ofList]
  exact Text.newline_not_mem_lines hl

/-- **A line that is read has no newline**, whether the input is text or not. -/
theorem newline_not_mem_of_entry {input : ByteArray} {entry : Entry σ} (h : entry ∈ entriesOf input)
    (hline : entry.line = .ok line) : '\n' ∉ line.toList := by
  unfold entriesOf at h
  split at h
  · exact newline_not_mem_of_text h hline
  · obtain ⟨bytes, -, rfl⟩ := List.mem_map.1 h
    unfold entryOfBytes at hline
    split at hline
    · next text _ =>
      obtain rfl : String.ofList ((Text.lines text.toList).headD []) = line := by simpa [Entry.ofLine] using hline
      rw [String.toList_ofList]
      cases hlines : Text.lines text.toList with
      | nil => exact List.not_mem_nil
      | cons first rest => exact Text.newline_not_mem_lines (hlines ▸ List.mem_cons_self)
    · cases hline

theorem entriesOf_of_not_mem (hne : name ≠ "") (h : '\n' ∉ name.toList) :
    (entriesOf name.toUTF8 : List (Entry σ)) = [⟨.ok name, []⟩] := by
  have hchars : name.toList ≠ [] := fun hnil => hne (String.toList_eq_nil_iff.1 hnil)
  unfold entriesOf
  rw [Text.fromUTF8?_toUTF8]
  simp [entriesOfText, Text.lines_of_not_mem hchars h, Entry.ofLine]

/-! ## Listed names -/

theorem ne_empty_of_listed {s : Store} {t : Files.Tree} {names : List String} (hlist : s.list t = .ok names)
    (hname : name ∈ names) : name ≠ "" := by
  rw [Store.list_eq] at hlist
  split at hlist
  · cases hlist
  · obtain rfl := Except.ok.inj hlist
    obtain ⟨dirs, file, -, hlisted⟩ := Store.mem_namesBelow.1 hname
    obtain ⟨-, -, stem, -, hstem, rfl⟩ := Store.listedName?_eq_some_iff.1 hlisted
    obtain ⟨front, -, hfront⟩ := Path.intercalate_front dirs
    have hlast : Store.listedStem stem ≠ "" := by
      unfold Store.listedStem
      split
      · decide
      · exact hstem
    rw [hfront, ne_eq, String.append_eq_empty_iff]
    exact fun h => hlast h.2

/-- **Which listed names can be typed.**  A line that is a listed name loads that name if it is no word of the prompt
and has no blank at either end.  There is input with a line that loads it if the name itself does, as a line, and has no
newline in it. -/
theorem list_typed_iff (σ : Type) {s : Store} {t : Files.Tree} {names : List String} {name : String}
    (hlist : s.list t = .ok names) (hname : name ∈ names) :
    (PromptCommand.parse (some name) = .load name ↔
      name ∉ promptWords ∧ (∀ c ∈ name.toList.head?, Text.isBlank c = false) ∧
        ∀ c ∈ name.toList.getLast?, Text.isBlank c = false) ∧
    ((∃ input, ∃ entry ∈ (entriesOf input : List (Entry σ)), ∃ line, entry.line = .ok line ∧
        PromptCommand.parse (some line) = .load name) ↔
      PromptCommand.parse (some name) = .load name ∧ '\n' ∉ name.toList) := by
  have hne : name ≠ "" := ne_empty_of_listed hlist hname
  constructor
  · rw [parse_eq_load_iff, Text.trim_eq_self_iff]
    tauto
  · constructor
    · rintro ⟨input, entry, hentry, line, hline, hload⟩
      have hnewline : '\n' ∉ line.toList := newline_not_mem_of_entry hentry hline
      obtain ⟨htrim, -, hword⟩ := parse_eq_load_iff.1 hload
      rw [Text.trim, ← String.toList_inj, String.toList_ofList, Text.trimChars_eq_iff] at htrim
      obtain ⟨front, back, hsplit, -, -⟩ := htrim.blanks
      refine ⟨parse_eq_load_iff.2 ⟨Text.trim_eq_self_iff.2 ⟨htrim.head, htrim.last⟩, hne, hword⟩, fun hmem => ?_⟩
      exact hnewline (hsplit ▸ List.mem_append_right front (List.mem_append_left back hmem))
    · rintro ⟨hload, hnewline⟩
      refine ⟨name.toUTF8, ⟨.ok name, []⟩, ?_, name, rfl, hload⟩
      rw [entriesOf_of_not_mem hne hnewline]
      exact List.mem_singleton_self _

/-- A word of the prompt, a name behind a blank and a name with a blank in the middle. -/
def wordy : Files.Tree :=
  { top := .dir [("s", .dir [
      ("quit.frag", .file ⟨#[1]⟩), (" a.frag", .file ⟨#[2]⟩), ("sub", .dir [("a b.frag", .file ⟨#[3]⟩)])])]
    workDir := [] }

theorem list_typed_iff_wordy :
    (⟨"s", "frag", "glsl"⟩ : Store).list wordy = .ok [" a", "quit", "sub/a b"] ∧
      PromptCommand.parse (some "sub/a b") = .load "sub/a b" ∧
      ∃ input, ∃ entry ∈ (entriesOf input : List (Entry Unit)), ∃ line, entry.line = .ok line ∧
        PromptCommand.parse (some line) = .load "sub/a b" := by
  have hlist : (⟨"s", "frag", "glsl"⟩ : Store).list wordy = .ok [" a", "quit", "sub/a b"] := by cbv
  have hname : "sub/a b" ∈ [" a", "quit", "sub/a b"] := by decide
  obtain ⟨hload, htyped⟩ := list_typed_iff Unit hlist hname
  have htrim : Text.trim "sub/a b" = "sub/a b" := by decide +kernel
  have hload := hload.2 ⟨by decide, Text.trim_eq_self_iff.1 htrim⟩
  exact ⟨hlist, hload, htyped.2 ⟨hload, by decide⟩⟩

/-- **A listed name that cannot be typed**: a file may have a word of the prompt for its name, or a name behind a
blank, and what is typed leaves the prompt or loads another name. -/
theorem list_untypable :
    (⟨"s", "frag", "glsl"⟩ : Store).list wordy = .ok [" a", "quit", "sub/a b"] ∧
      PromptCommand.parse (some "quit") = .quit ∧ PromptCommand.parse (some " a") = .load "a" := by
  exact ⟨by cbv, by decide +kernel, by decide +kernel⟩

end Console
end LiveShader
