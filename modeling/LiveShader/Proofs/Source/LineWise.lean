import LiveShader.Proofs.Text.Search
import LiveShader.Source.Flatten
import Mathlib.Data.List.Forall2
/-!
# Proofs.Source.LineWise — a flattened shader, line by line

What each line of a shader is to contribute is said of the line alone (`Yields`); the outcome is then the pieces of all
lines in order, or the first include that cannot be read (`Meets`).  The pass yields just the outcome that meets this.
-/
namespace LiveShader
namespace Source

open Text (FirstAt Trimmed isBlank cut?_eq_some_iff cut?_eq_none_iff occursIn_iff_isInfix trimChars_eq_iff)

/-- A line with a well-formed include: behind the first mark stands, but for blanks, `<name>` with a name that is not
blank. -/
structure Directive (line name : List Char) : Prop where
  marked : ∃ before rest, FirstAt includeMark line before rest ∧ Trimmed rest ('<' :: (name ++ ['>']))
  named : ∃ c ∈ name, isBlank c = false

/-- What a line adds to source, includes and warnings. -/
structure Piece where
  text : List Char
  includes : List String
  warnings : List Warning

def Piece.append (a b : Piece) : Piece := ⟨a.text ++ b.text, a.includes ++ b.includes, a.warnings ++ b.warnings⟩

/-- The lines of a fragment, each ended by a newline, without those that have a version mark and no include mark. -/
def keptText (content : List Char) : List Char :=
  ((Text.lines content).filter fun l => includeMark <:+: l ∨ ¬ versionMark <:+: l).flatMap (· ++ ['\n'])

/-- One warning for each line of a fragment that has an include mark. -/
def nestedWarnings (number : Nat) (path : String) (content : List Char) : List Warning :=
  ((Text.lines content).filter fun l => includeMark <:+: l).map fun _ => .nestedInclude number path

variable (read : String → Except Files.AccessError String) (store : Store)

abbrev pathOf (name : List Char) : String := store.includePath (String.ofList name)

/-- **What a line contributes.** -/
inductive Yields (number : Nat) (line : List Char) : Piece → Prop
  | inlined {name : List Char} {content : String} :
    Directive line name → read (pathOf store name) = .ok content →
      Yields number line ⟨keptText content.toList, [pathOf store name],
        nestedWarnings number (pathOf store name) content.toList⟩
  | malformed {trimmed : List Char} :
    includeMark <:+: line → (∀ name, ¬ Directive line name) → Trimmed line trimmed →
      Yields number line ⟨['\n'], [], [.malformedInclude number (String.ofList trimmed)]⟩
  | pragma : ¬ includeMark <:+: line → versionMark <:+: line → Yields number line ⟨[], [], []⟩
  | code : ¬ includeMark <:+: line → ¬ versionMark <:+: line → Yields number line ⟨line ++ ['\n'], [], []⟩

/-- Every include on a line can be read. -/
def Readable (line : List Char) : Prop := ∀ name, Directive line name → ∃ content, read (pathOf store name) = .ok content

/-- **What the outcome for a path is**: source, includes and warnings, or why there are none. -/
inductive Meets (path : String) : Except FlattenError (String × List String × List Warning) → Prop
  | unreadable {cause : Files.AccessError} :
    read path = .error cause → Meets path (.error (.sourceNotFound path cause))
  | missing {text : String} {before after : List (List Char)} {line name : List Char} {cause : Files.AccessError} :
    read path = .ok text → Text.lines text.toList = before ++ line :: after →
      (∀ l ∈ before, Readable read store l) → Directive line name → read (pathOf store name) = .error cause →
        Meets path (.error (.includeNotFound (String.ofList name) (pathOf store name) (before.length + 1) cause))
  | flattened {text : String} {pieces : List Piece} :
    read path = .ok text →
      List.Forall₂ (fun numbered piece => Yields read store numbered.2 numbered.1 piece)
        ((Text.lines text.toList).zipIdx 1) pieces →
        Meets path (.ok (String.ofList (pieces.flatMap (·.text)), pieces.flatMap (·.includes),
          pieces.flatMap (·.warnings)))

/-! ## The kind of a line -/

theorem fragmentName?_eq_some_iff {rest name : List Char} :
    fragmentName? rest = some name ↔ Trimmed rest ('<' :: (name ++ ['>'])) ∧ ∃ c ∈ name, isBlank c = false := by
  rw [← trimChars_eq_iff, ← Text.isAllBlank_eq_false_iff]
  unfold fragmentName?
  split
  · next inner heq =>
    rw [heq, Option.bind_eq_some_iff, List.cons.injEq, ← Text.dropLast?_eq_some_iff, eq_self_iff_true, true_and]
    constructor
    · rintro ⟨n, hn, hblank⟩
      split at hblank
      · cases hblank
      · next hb =>
        cases hblank
        exact ⟨hn, by simpa using hb⟩
    · rintro ⟨hn, hblank⟩
      exact ⟨name, hn, by rw [hblank]; rfl⟩
  · next hne =>
    constructor
    · intro h
      cases h
    · rintro ⟨h, -⟩
      exact absurd h (hne _)

theorem directive_iff {line name : List Char} :
    Directive line name ↔ ∃ before rest, Text.cut? includeMark line = some (before, rest) ∧
      fragmentName? rest = some name := by
  constructor
  · rintro ⟨⟨before, rest, hfirst, htrim⟩, hnamed⟩
    exact ⟨before, rest, cut?_eq_some_iff.2 hfirst, fragmentName?_eq_some_iff.2 ⟨htrim, hnamed⟩⟩
  · rintro ⟨before, rest, hcut, hname⟩
    obtain ⟨htrim, hnamed⟩ := fragmentName?_eq_some_iff.1 hname
    exact ⟨⟨before, rest, cut?_eq_some_iff.1 hcut, htrim⟩, hnamed⟩

/-- **The kind of a line says what stands in it.** -/
theorem lineKind_spec (line : List Char) :
    match lineKind line with
    | .directive name => Directive line name
    | .malformed => includeMark <:+: line ∧ ∀ name, ¬ Directive line name
    | .pragma => ¬ includeMark <:+: line ∧ versionMark <:+: line
    | .code => ¬ includeMark <:+: line ∧ ¬ versionMark <:+: line := by
  unfold lineKind
  cases hcut : Text.cut? includeMark line with
  | none =>
    have hno := cut?_eq_none_iff.1 hcut
    cases hv : Text.occursIn versionMark line with
    | true => exact ⟨hno, occursIn_iff_isInfix.1 hv⟩
    | false => exact ⟨hno, fun h => by rw [occursIn_iff_isInfix.2 h] at hv; cases hv⟩
  | some cut =>
    obtain ⟨before, rest⟩ := cut
    have hmark : includeMark <:+: line := occursIn_iff_isInfix.1 (by rw [Text.occursIn, hcut]; rfl)
    cases hname : fragmentName? rest with
    | some name =>
      simp only [hname]
      exact directive_iff.2 ⟨before, rest, hcut, hname⟩
    | none =>
      simp only [hname]
      refine ⟨hmark, fun name hd => ?_⟩
      obtain ⟨before', rest', hcut', hname'⟩ := directive_iff.1 hd
      rw [hcut] at hcut'
      cases hcut'
      rw [hname] at hname'
      cases hname'

/-- A line has at most one name. -/
theorem Directive.unique {line name name' : List Char} (h : Directive line name) (h' : Directive line name') :
    name = name' := by
  obtain ⟨before, rest, hcut, hname⟩ := directive_iff.1 h
  obtain ⟨before', rest', hcut', hname'⟩ := directive_iff.1 h'
  rw [hcut] at hcut'
  cases hcut'
  exact Option.some.inj (hname.symm.trans hname')

theorem lineKind_of_directive {line name : List Char} (h : Directive line name) : lineKind line = .directive name := by
  obtain ⟨before, rest, hcut, hname⟩ := directive_iff.1 h
  unfold lineKind
  rw [hcut]
  simp only [hname]

theorem lineKind_of_malformed {line : List Char} (hm : includeMark <:+: line) (hno : ∀ name, ¬ Directive line name) :
    lineKind line = .malformed := by
  have h := lineKind_spec line
  cases hk : lineKind line with
  | directive name => rw [hk] at h; exact absurd h (hno name)
  | malformed => rfl
  | pragma => rw [hk] at h; exact absurd hm h.1
  | code => rw [hk] at h; exact absurd hm h.1

theorem lineKind_of_pragma {line : List Char} (hm : ¬ includeMark <:+: line) (hv : versionMark <:+: line) :
    lineKind line = .pragma := by
  unfold lineKind
  rw [cut?_eq_none_iff.2 hm, if_pos (occursIn_iff_isInfix.2 hv)]

theorem lineKind_of_code {line : List Char} (hm : ¬ includeMark <:+: line) (hv : ¬ versionMark <:+: line) :
    lineKind line = .code := by
  unfold lineKind
  rw [cut?_eq_none_iff.2 hm, if_neg (fun h => hv (occursIn_iff_isInfix.1 h))]

/-! ## The pass -/

/-- What some lines contributed, as one piece. -/
def Flattened.piece (f : Flattened) : Piece := ⟨Text.unlines f.lines, f.includes, f.warnings⟩

theorem piece_append (a b : Flattened) : (a.append b).piece = a.piece.append b.piece := by
  unfold Flattened.piece Flattened.append Piece.append Text.unlines
  rw [List.flatMap_append]

theorem piece_code (line : List Char) : (⟨[line], [], []⟩ : Flattened).piece = ⟨line ++ ['\n'], [], []⟩ := by
  simp [Flattened.piece, Text.unlines]

theorem keptInFragment_iff {line : List Char} :
    keptInFragment line = true ↔ includeMark <:+: line ∨ ¬ versionMark <:+: line := by
  unfold keptInFragment
  rw [Bool.or_eq_true, Bool.not_eq_true', occursIn_iff_isInfix, ← occursIn_iff_isInfix (m := versionMark),
    Bool.not_eq_true]

theorem piece_inlined (number : Nat) (path : String) (content : List Char) :
    (inlined number path content).piece = ⟨keptText content, [path], nestedWarnings number path content⟩ := by
  have hkept : keptInFragment = fun l => decide (includeMark <:+: l ∨ ¬ versionMark <:+: l) := by
    funext l
    exact Bool.eq_iff_iff.2 (keptInFragment_iff.trans (decide_eq_true_iff).symm)
  have hnested : Text.occursIn includeMark = fun l => decide (includeMark <:+: l) := by
    funext l
    exact Bool.eq_iff_iff.2 (occursIn_iff_isInfix.trans (decide_eq_true_iff).symm)
  unfold inlined Flattened.piece keptText nestedWarnings
  rw [hkept, hnested]
  rfl

section

variable {read : String → Except Files.AccessError String} {store : Store}

/-- **A line contributes what is said of it.** -/
theorem flattenLine_ok_iff {number : Nat} {line : List Char} {p : Piece} :
    (flattenLine read store number line).map Flattened.piece = .ok p ↔ Yields read store number line p := by
  constructor
  · intro h
    have hk := lineKind_spec line
    unfold flattenLine at h
    cases hkind : lineKind line with
    | directive name =>
      rw [hkind] at h hk
      simp only at h
      cases hr : read (pathOf store name) with
      | error cause => rw [hr] at h; cases h
      | ok content =>
        rw [hr] at h
        cases h
        rw [piece_inlined]
        exact .inlined hk hr
    | malformed =>
      rw [hkind] at h hk
      cases h
      exact .malformed hk.1 hk.2 (trimChars_eq_iff.1 rfl)
    | pragma =>
      rw [hkind] at h hk
      cases h
      exact .pragma hk.1 hk.2
    | code =>
      rw [hkind] at h hk
      cases h
      rw [piece_code]
      exact .code hk.1 hk.2
  · intro h
    unfold flattenLine
    cases h with
    | inlined hd hr =>
      simp only [lineKind_of_directive hd, hr]
      exact congrArg Except.ok (piece_inlined _ _ _)
    | malformed hm hno ht =>
      rw [lineKind_of_malformed hm hno, trimChars_eq_iff.2 ht]
      rfl
    | pragma hm hv => rw [lineKind_of_pragma hm hv]; rfl
    | code hm hv =>
      rw [lineKind_of_code hm hv]
      exact congrArg Except.ok (piece_code line)

/-- A line ends the pass when its include cannot be read. -/
theorem flattenLine_error_iff {number : Nat} {line : List Char} {e : FlattenError} :
    flattenLine read store number line = .error e ↔ ∃ name cause, Directive line name ∧
      read (pathOf store name) = .error cause ∧
        e = .includeNotFound (String.ofList name) (pathOf store name) number cause := by
  constructor
  · intro h
    have hk := lineKind_spec line
    unfold flattenLine at h
    cases hkind : lineKind line with
    | directive name =>
      rw [hkind] at h hk
      simp only at h
      cases hr : read (pathOf store name) with
      | ok content => rw [hr] at h; cases h
      | error cause =>
        rw [hr] at h
        cases h
        exact ⟨name, cause, hk, hr, rfl⟩
    | malformed => rw [hkind] at h; cases h
    | pragma => rw [hkind] at h; cases h
    | code => rw [hkind] at h; cases h
  · rintro ⟨name, cause, hd, hr, rfl⟩
    unfold flattenLine
    simp only [lineKind_of_directive hd, hr]

theorem readable_of_ok {number : Nat} {line : List Char} {f : Flattened}
    (h : flattenLine read store number line = .ok f) : Readable read store line := by
  intro name hd
  cases hr : read (pathOf store name) with
  | ok content => exact ⟨content, rfl⟩
  | error cause =>
    rw [flattenLine_error_iff.2 ⟨name, cause, hd, hr, rfl⟩] at h
    cases h

theorem not_readable {line name : List Char} {cause : Files.AccessError} (hd : Directive line name)
    (hr : read (pathOf store name) = .error cause) : ¬ Readable read store line := by
  intro h
  obtain ⟨content, hc⟩ := h name hd
  rw [hr] at hc
  cases hc

def join (pieces : List Piece) : Piece :=
  ⟨pieces.flatMap (·.text), pieces.flatMap (·.includes), pieces.flatMap (·.warnings)⟩

theorem join_cons (p : Piece) (ps : List Piece) : join (p :: ps) = p.append (join ps) := by
  simp [join, Piece.append]

/-- **Lines contribute the pieces of each, in order.** -/
theorem flattenLines_ok_iff : ∀ {ls : List (List Char)} {number : Nat} {p : Piece},
    (flattenLines read store number ls).map Flattened.piece = .ok p ↔
      ∃ pieces, List.Forall₂ (fun numbered piece => Yields read store numbered.2 numbered.1 piece)
        (ls.zipIdx number) pieces ∧ p = join pieces
  | [], number, p => by
    constructor
    · intro h
      cases h
      exact ⟨[], .nil, rfl⟩
    · rintro ⟨pieces, hp, rfl⟩
      cases hp
      rfl
  | line :: ls, number, p => by
    rw [List.zipIdx_cons, flattenLines]
    constructor
    · intro h
      cases hl : flattenLine read store number line with
      | error e => rw [hl] at h; cases h
      | ok here =>
        cases hls : flattenLines read store (number + 1) ls with
        | error e => rw [hl, hls] at h; cases h
        | ok below =>
          rw [hl, hls] at h
          cases h
          obtain ⟨pieces, hp, hj⟩ := flattenLines_ok_iff.1 (congrArg (Except.map Flattened.piece) hls)
          have hy := flattenLine_ok_iff.1 (congrArg (Except.map Flattened.piece) hl)
          exact ⟨here.piece :: pieces, .cons hy hp, by rw [piece_append, hj, join_cons]⟩
    · rintro ⟨pieces, hp, rfl⟩
      cases hp with
      | cons hy hp =>
        have hl := flattenLine_ok_iff.2 hy
        have hls := flattenLines_ok_iff.2 ⟨_, hp, rfl⟩
        cases hline : flattenLine read store number line with
        | error e => rw [hline] at hl; cases hl
        | ok here =>
          cases hrest : flattenLines read store (number + 1) ls with
          | error e => rw [hrest] at hls; cases hls
          | ok below =>
            rw [hline] at hl
            rw [hrest] at hls
            show Except.ok (here.append below).piece = _
            have hhere : here.piece = _ := Except.ok.inj hl
            have hbelow : below.piece = _ := Except.ok.inj hls
            rw [piece_append, hhere, hbelow, join_cons]

theorem flattenLines_cons_error {number : Nat} {line : List Char} {ls : List (List Char)} {here : Flattened}
    {e : FlattenError} (hl : flattenLine read store number line = .ok here) :
    flattenLines read store number (line :: ls) = .error e ↔ flattenLines read store (number + 1) ls = .error e := by
  rw [flattenLines, hl]
  cases flattenLines read store (number + 1) ls with
  | error e' => rfl
  | ok below => exact ⟨fun h => (by cases h), fun h => (by cases h)⟩

/-- **Lines end the pass at the first include that cannot be read.** -/
theorem flattenLines_error_iff : ∀ {ls : List (List Char)} {number : Nat} {e : FlattenError},
    flattenLines read store number ls = .error e ↔ ∃ before line after name cause, ls = before ++ line :: after ∧
      (∀ l ∈ before, Readable read store l) ∧ Directive line name ∧ read (pathOf store name) = .error cause ∧
        e = .includeNotFound (String.ofList name) (pathOf store name) (number + before.length) cause
  | [], number, e => by
    constructor
    · intro h
      cases h
    · rintro ⟨before, line, after, name, cause, h, -⟩
      cases before <;> cases h
  | line :: ls, number, e => by
    cases hl : flattenLine read store number line with
    | error e' =>
      rw [flattenLines, hl]
      constructor
      · intro h
        cases h
        obtain ⟨name, cause, hd, hr, he⟩ := flattenLine_error_iff.1 hl
        exact ⟨[], line, ls, name, cause, rfl, fun _ h => (by cases h), hd, hr, he⟩
      · rintro ⟨before, line', after, name, cause, hs, hbefore, hd, hr, rfl⟩
        cases before with
        | nil =>
          cases hs
          rw [flattenLine_error_iff.2 ⟨name, cause, hd, hr, rfl⟩] at hl
          cases hl
          rfl
        | cons l before =>
          cases hs
          obtain ⟨name', cause', hd', hr', -⟩ := flattenLine_error_iff.1 hl
          exact absurd (hbefore line List.mem_cons_self) (not_readable hd' hr')
    | ok here =>
      have hreadable := readable_of_ok hl
      refine (flattenLines_cons_error hl).trans (flattenLines_error_iff.trans ?_)
      constructor
      · rintro ⟨before, line', after, name, cause, rfl, hbefore, hd, hr, rfl⟩
        refine ⟨line :: before, line', after, name, cause, rfl, ?_, hd, hr, ?_⟩
        · exact fun l hm => (List.mem_cons.1 hm).elim (fun h => h ▸ hreadable) (hbefore l)
        · rw [List.length_cons, Nat.add_assoc, Nat.add_comm 1]
      · rintro ⟨before, line', after, name, cause, hs, hbefore, hd, hr, rfl⟩
        cases before with
        | nil =>
          cases hs
          exact absurd hreadable (not_readable hd hr)
        | cons l before =>
          cases hs
          refine ⟨before, line', after, name, cause, rfl, ?_, hd, hr, ?_⟩
          · exact fun l hm => hbefore l (List.mem_cons_of_mem _ hm)
          · rw [List.length_cons, Nat.add_assoc, Nat.add_comm 1]

/-- Source, includes and warnings. -/
def Flattened.outputs (f : Flattened) : String × List String × List Warning := (f.source, f.includes, f.warnings)

/-- **The pass meets its line-wise specification**: its outcome is the one outcome that the lines of the shader ask
for. -/
theorem flatten_iff_meets (read : String → Except Files.AccessError String) (store : Store) (path : String)
    (outcome : Except FlattenError (String × List String × List Warning)) :
    (flatten read store path).map Flattened.outputs = outcome ↔ Meets read store path outcome := by
  unfold flatten flattenText
  cases hr : read path with
  | error cause =>
    constructor
    · rintro rfl
      exact .unreadable hr
    · intro h
      cases h with
      | unreadable h => rw [hr] at h; cases h; rfl
      | missing h => rw [hr] at h; cases h
      | flattened h => rw [hr] at h; cases h
  | ok text =>
    show (flattenLines read store 1 (Text.lines text.toList)).map Flattened.outputs = outcome ↔ _
    constructor
    · rintro rfl
      cases hf : flattenLines read store 1 (Text.lines text.toList) with
      | error e =>
        obtain ⟨before, line, after, name, cause, hs, hbefore, hd, hc, rfl⟩ := flattenLines_error_iff.1 hf
        rw [Nat.add_comm]
        exact .missing hr hs hbefore hd hc
      | ok f =>
        obtain ⟨pieces, hp, hj⟩ := flattenLines_ok_iff.1 (congrArg (Except.map Flattened.piece) hf)
        have ho : f.outputs = (String.ofList (join pieces).text, (join pieces).includes, (join pieces).warnings) := by
          rw [← hj]
          rfl
        show Meets read store path (.ok f.outputs)
        rw [ho]
        exact .flattened hr hp
    · intro h
      cases h with
      | unreadable h => rw [hr] at h; cases h
      | missing h hs hbefore hd hc =>
        rw [hr] at h
        cases h
        rw [flattenLines_error_iff.2 ⟨_, _, _, _, _, hs, hbefore, hd, hc, rfl⟩, Nat.add_comm]
        rfl
      | flattened h hp =>
        rw [hr] at h
        cases h
        have hf := flattenLines_ok_iff.2 ⟨_, hp, rfl⟩
        cases hl : flattenLines read store 1 (Text.lines text.toList) with
        | error e => rw [hl] at hf; cases hf
        | ok f =>
          rw [hl] at hf
          have hj : f.piece = _ := Except.ok.inj hf
          show Except.ok (String.ofList f.piece.text, f.piece.includes, f.piece.warnings) = _
          rw [hj]
          rfl

end

end Source
end LiveShader
