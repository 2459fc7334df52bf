import LiveShader.Proofs.Program.Tracking
import LiveShader.Uniform.Upload
/-!
# Proofs.Uniform.Locations — a table's locations are those of the link it names

A driver `Reports` locations when its answers depend on the program's last link and the name alone.  Then a table that
was brought in line with a slot has the locations of the slot's last link (`Syncs.located`), whatever it was resolved
for before, and uploads to just those that this link reports (`Cached.index?`).
-/
namespace LiveShader
namespace Uniform

open Machine
open Ledger (Along)

variable {σ : Type}

/-- The driver's answers about locations: `report n` for a program whose last link was the `n`th that succeeded. -/
def Reports (report : Nat → String → Option Nat) (L : Ledger) : Entry → Prop
  | .call ⟨.pipeline (.uniformLocation p name), answer⟩ =>
    ∀ x ∈ L.programs, x.id = p → ∀ n ∈ x.link, answer = report n name
  | _ => True

instance Reports.decidable (report : Nat → String → Option Nat) (L : Ledger) : ∀ e, Decidable (Reports report L e)
  | .call ⟨.pipeline (.uniformLocation p name), answer⟩ =>
    inferInstanceAs (Decidable (∀ x ∈ L.programs, x.id = p → ∀ n ∈ x.link, answer = report n name))
  | .call ⟨.pipeline (.createShader _), _⟩ | .call ⟨.pipeline (.compileShader _ _), _⟩
  | .call ⟨.pipeline (.shaderLog _), _⟩ | .call ⟨.pipeline (.deleteShader _), _⟩
  | .call ⟨.pipeline .createProgram, _⟩ | .call ⟨.pipeline (.attachShader _ _), _⟩
  | .call ⟨.pipeline (.detachShader _ _), _⟩ | .call ⟨.pipeline (.linkProgram _), _⟩
  | .call ⟨.pipeline (.programLog _), _⟩ | .call ⟨.pipeline (.deleteProgram _), _⟩
  | .call ⟨.pipeline (.useProgram _), _⟩ | .call ⟨.pipeline (.setUniform _ _), _⟩
  | .call ⟨.draw _, _⟩ | .call ⟨.screen _, _⟩ | .event _ => isTrue trivial

namespace Location

theorem index?_ofAnswer {answer : Option Nat} (h : ∀ n ∈ answer, n ≤ limit) : (ofAnswer answer).index? = answer := by
  cases answer with
  | none => rfl
  | some n =>
    have hn : n ≤ limit := h n rfl
    simp [ofAnswer, hn, index?, isPresent]

end Location

namespace Table

/-! ## Values -/

/-- Every value has the shape of its uniform. -/
def Shaped (t : Table) : Prop := ∀ u, (t.value u).shape = u.shape

theorem shaped_initial (order : Order) : (initial order).Shaped := by
  intro u
  unfold value
  rw [slot_initial]
  rfl

theorem Shaped.accepts {t : Table} (h : t.Shaped) {u : Uniform} {x : Value} (hx : x.shape = u.shape) :
    t.accepts u x = true := by
  unfold Table.accepts
  rw [h u, hx]
  exact beq_self_eq_true _

theorem value_set {t : Table} {u : Uniform} {x : Value} (h : t.accepts u x = true) (v : Uniform) :
    (t.set u x).value v = if u = v then x else t.value v := by
  unfold value
  rw [slot_set t u v x h]
  split <;> rfl

theorem location_set (t : Table) (u v : Uniform) (x : Value) : (t.set u x).location v = t.location v := by
  unfold location
  cases h : t.accepts u x with
  | true =>
    rw [slot_set t u v x h]
    split
    · next e => rw [← e]
    · rfl
  | false =>
    unfold set
    rw [h]
    rfl

theorem order_set (t : Table) (u : Uniform) (x : Value) : (t.set u x).order = t.order := by
  unfold set
  split <;> rfl

theorem resolvedFor_set (t : Table) (u : Uniform) (x : Value) : (t.set u x).resolvedFor = t.resolvedFor := by
  unfold set
  split <;> rfl

theorem Shaped.set {t : Table} (h : t.Shaped) {u : Uniform} {x : Value} (hx : x.shape = u.shape) : (t.set u x).Shaped := by
  intro v
  rw [value_set (h.accepts hx)]
  split
  · next e => rw [← e, hx]
  · exact h v

theorem setAll_cons (t : Table) (u : Uniform) (x : Value) (values : List (Uniform × Value)) :
    t.setAll ((u, x) :: values) = (t.set u x).setAll values := rfl

theorem setAll_keeps : ∀ (values : List (Uniform × Value)) (t : Table),
    (t.setAll values).order = t.order ∧ (t.setAll values).resolvedFor = t.resolvedFor ∧
      ∀ u, (t.setAll values).location u = t.location u
  | [], t => ⟨rfl, rfl, fun _ => rfl⟩
  | (u, x) :: values, t => by
    obtain ⟨ho, hr, hl⟩ := setAll_keeps values (t.set u x)
    rw [setAll_cons, ho, hr, order_set, resolvedFor_set]
    exact ⟨rfl, rfl, fun v => (hl v).trans (location_set t u v x)⟩

/-- Values to set, each of its uniform's shape and none for the same uniform twice. -/
structure Assigns (values : List (Uniform × Value)) : Prop where
  shaped : ∀ p ∈ values, p.2.shape = p.1.shape
  nodup : (values.map (·.1)).Nodup

/-- **Values that were set are held, and the others are as they were.** -/
theorem value_setAll : ∀ {values : List (Uniform × Value)} {t : Table}, t.Shaped → Assigns values →
    (t.setAll values).Shaped ∧ (∀ p ∈ values, (t.setAll values).value p.1 = p.2) ∧
      ∀ u, u ∉ values.map (·.1) → (t.setAll values).value u = t.value u
  | [], t, ht, _ => ⟨ht, fun _ h => (by cases h), fun _ _ => rfl⟩
  | (u, x) :: values, t, ht, hv => by
    have hx : x.shape = u.shape := hv.shaped (u, x) List.mem_cons_self
    have hnodup : u ∉ values.map (·.1) ∧ (values.map (·.1)).Nodup := List.nodup_cons.1 hv.nodup
    obtain ⟨hs, hset, hkept⟩ := value_setAll (ht.set hx)
      (⟨fun p hp => hv.shaped p (List.mem_cons_of_mem _ hp), hnodup.2⟩ : Assigns values)
    refine ⟨hs, fun p hp => ?_, fun v hn => ?_⟩
    · rcases List.mem_cons.1 hp with rfl | hp
      · rw [setAll_cons, hkept u hnodup.1, value_set (ht.accepts hx), if_pos rfl]
      · exact hset p hp
    · rw [List.map_cons, List.mem_cons, not_or] at hn
      rw [setAll_cons, hkept v hn.2, value_set (ht.accepts hx), if_neg (fun h => hn.1 h.symm)]

/-! ## Locations -/

theorem location_place (t : Table) (u v : Uniform) (l : Location) :
    (t.place u l).location v = if u = v then l else t.location v := by
  unfold location
  rw [slot_place]
  split <;> rfl

theorem value_place (t : Table) (u v : Uniform) (l : Location) : (t.place u l).value v = t.value v := by
  unfold value
  rw [slot_place]
  split
  · next e => rw [← e]
  · rfl

/-- Asking a program for the locations of some uniforms. -/
inductive Resolves (p : ProgramId) : List Uniform → Table → Table → Trace → Prop
  | nil (t : Table) : Resolves p [] t t []
  | cons {u : Uniform} {us : List Uniform} {t t' : Table} {q : Trace} (answer : Option Nat) :
    Resolves p us (t.place u (.ofAnswer answer)) t' q →
      Resolves p (u :: us) t t' (said (.uniformLocation p u.glslName) answer :: q)

theorem resolveEach_calls (p : ProgramId) : ∀ (us : List Uniform) (t : Table),
    (resolveEach p us t : Run σ Table).Calls fun t' q => Resolves p us t t' q
  | [], t => fun _ => .pure ⟨.nil t, rfl⟩
  | u :: us, t => by
    intro files
    refine .ask fun answer => ?_
    exact (resolveEach_calls p us _ files).mono (fun t' q f h => ⟨.cons answer h.1, h.2⟩)

variable {p : ProgramId} {us : List Uniform} {t t' : Table} {q : Trace} {L : Ledger}
  {report : Nat → String → Option Nat}

theorem Resolves.keeps (h : Resolves p us t t' q) :
    t'.order = t.order ∧ (∀ u, t'.value u = t.value u) ∧ L.after q = L := by
  induction h with
  | nil t => exact ⟨rfl, fun _ => rfl, rfl⟩
  | cons answer _ ih =>
    obtain ⟨ho, hv, hL⟩ := ih
    exact ⟨ho, fun v => (hv v).trans (value_place _ _ _ _), hL⟩

theorem Resolves.queries (h : Resolves p us t t' q) :
    ∀ e ∈ q, ∃ name answer, e = said (.uniformLocation p name) answer := by
  induction h with
  | nil t => exact fun _ h => by cases h
  | cons answer _ ih =>
    intro e he
    rcases List.mem_cons.1 he with rfl | he
    · exact ⟨_, answer, rfl⟩
    · exact ih e he

theorem Resolves.located (h : Resolves p us t t' q) {n : Nat} (hp : ∃ x ∈ L.programs, x.id = p ∧ x.link = some n)
    (hq : Along (Reports report) L q) :
    (∀ u ∈ us, t'.location u = .ofAnswer (report n u.glslName)) ∧ ∀ u, u ∉ us → t'.location u = t.location u := by
  induction h with
  | nil t => exact ⟨fun _ h => (by cases h), fun _ _ => rfl⟩
  | @cons u us t t' q answer h ih =>
    obtain ⟨hin, hout⟩ := ih hq.2
    obtain ⟨x, hx, hid, hlink⟩ := hp
    have hanswer : answer = report n u.glslName := hq.1 x hx hid n hlink
    refine ⟨fun v hv => ?_, fun v hv => ?_⟩
    · by_cases hm : v ∈ us
      · exact hin v hm
      · have he : v = u := (List.mem_cons.1 hv).resolve_right hm
        rw [hout v hm, location_place, if_pos he.symm, he, hanswer]
    · rw [List.mem_cons, not_or] at hv
      rw [hout v hv.2, location_place, if_neg (fun h => hv.1 h.symm)]

/-- **Resolving for the program in a slot** gives every uniform its location of the last link. -/
theorem Resolves.current {l : Program.Linked} {s : Program.Slot} (h : Resolves l.program t.order.walk t t' q)
    (hs : s.Tracks L) (hl : s.active = some l) (hq : Along (Reports report) L q) (u : Uniform) :
    t'.location u = .ofAnswer (report s.generation u.glslName) := by
  obtain ⟨x, hx, hid, hlink⟩ := hs.program hl
  obtain ⟨hin, -⟩ := h.located ⟨x, hx, hid, hlink⟩ hq
  exact hin u (t.order.perm.mem_iff.2 (mem_all u))

/-- Bringing a table in line with a slot. -/
inductive Syncs (t : Table) (s : Program.Slot) : Table → Trace → Prop
  | current {l : Program.Linked} : s.active = some l → t.resolvedFor = some s.generation → Syncs t s t []
  | renewed {l : Program.Linked} {t' : Table} {q : Trace} :
    s.active = some l → Resolves l.program t.order.walk t t' q →
      Syncs t s { t' with resolvedFor := some s.generation } q
  | emptied : s.active = none → t.resolvedFor.isSome = true → Syncs t s t.invalidate []
  | idle : s.active = none → t.resolvedFor = none → Syncs t s t []

theorem sync_calls (t : Table) (s : Program.Slot) : (t.sync s : Run σ Table).Calls fun t' q => Syncs t s t' q := by
  intro files
  unfold sync
  cases hl : s.active with
  | none =>
    cases hr : t.resolvedFor with
    | none => exact .pure ⟨.idle hl hr, rfl⟩
    | some n => exact .pure ⟨.emptied hl (by rw [hr]; rfl), rfl⟩
  | some l =>
    simp only
    split
    · next hr => exact .pure ⟨.current hl hr, rfl⟩
    · refine .calls (resolveEach_calls l.program t.order.walk t) fun t' q h => ?_
      exact .pure ⟨by rw [List.append_nil]; exact .renewed hl h, rfl⟩

/-- The locations of a table that was resolved for a link are those that this link reports. -/
def Cached (report : Nat → String → Option Nat) (t : Table) : Prop :=
  ∀ n, t.resolvedFor = some n → ∀ u, t.location u = .ofAnswer (report n u.glslName)

theorem cached_initial (order : Order) : (initial order).Cached report :=
  fun _ h => by cases h

theorem Cached.index? (h : t.Cached report) {n : Nat} (hn : t.resolvedFor = some n)
    (hfits : ∀ n name, ∀ k ∈ report n name, k ≤ Location.limit) (u : Uniform) :
    (t.location u).index? = report n u.glslName := by
  rw [h n hn u, Location.index?_ofAnswer (hfits n u.glslName)]

theorem Cached.setAll (h : t.Cached report) (values : List (Uniform × Value)) : (t.setAll values).Cached report := by
  obtain ⟨-, hr, hl⟩ := setAll_keeps values t
  intro n hn u
  rw [hl u]
  exact h n (hr ▸ hn) u

theorem Syncs.keeps {s : Program.Slot} (h : Syncs t s t' q) :
    t'.order = t.order ∧ (∀ u, t'.value u = t.value u) ∧ L.after q = L := by
  cases h with
  | current _ _ => exact ⟨rfl, fun _ => rfl, rfl⟩
  | renewed _ hr =>
    obtain ⟨ho, hv, hL⟩ := hr.keeps (L := L)
    exact ⟨ho, hv, hL⟩
  | emptied _ _ =>
    refine ⟨rfl, fun u => ?_, rfl⟩
    unfold value
    rw [slot_invalidate]
  | idle _ _ => exact ⟨rfl, fun _ => rfl, rfl⟩

/-- Values that were set before a table was brought in line are held after it. -/
theorem Syncs.values {s : Program.Slot} {values : List (Uniform × Value)} (h : Syncs (t.setAll values) s t' q)
    (ht : t.Shaped) (hv : Assigns values) :
    t'.Shaped ∧ (∀ p ∈ values, t'.value p.1 = p.2) ∧ ∀ u, u ∉ values.map (·.1) → t'.value u = t.value u := by
  obtain ⟨hshaped, hset, hkept⟩ := value_setAll ht hv
  obtain ⟨-, hvalue, -⟩ := h.keeps (L := {})
  refine ⟨fun u => ?_, fun p hp => ?_, fun u hu => ?_⟩
  · rw [hvalue]; exact hshaped u
  · rw [hvalue]; exact hset p hp
  · rw [hvalue]; exact hkept u hu

theorem Syncs.own_queries {s : Program.Slot} (h : Syncs t s t' q) :
    ∀ e ∈ q, ∃ l, s.active = some l ∧ ∃ name answer, e = said (.uniformLocation l.program name) answer := by
  cases h with
  | current _ _ => exact fun _ h => by cases h
  | renewed hl hr => exact fun e he => ⟨_, hl, hr.queries e he⟩
  | emptied _ _ => exact fun _ h => by cases h
  | idle _ _ => exact fun _ h => by cases h

theorem Syncs.queries {s : Program.Slot} (h : Syncs t s t' q) :
    ∀ e ∈ q, ∃ p name answer, e = said (.uniformLocation p name) answer := by
  intro e he
  obtain ⟨l, -, hquery⟩ := h.own_queries e he
  exact ⟨l.program, hquery⟩

/-- **A table in line with a loaded slot has the locations of the slot's last link.** -/
theorem Syncs.located {s : Program.Slot} (h : Syncs t s t' q) (ht : t.Cached report) (hs : s.Tracks L)
    (hq : Along (Reports report) L q) :
    t'.Cached report ∧ (s.isLoaded = true → t'.resolvedFor = some s.generation) := by
  have hempty : s.active = none → s.isLoaded = true → False := by
    intro hl hloaded
    rw [Program.Slot.isLoaded_of_empty hl] at hloaded
    cases hloaded
  cases h with
  | current _ hr => exact ⟨ht, fun _ => hr⟩
  | @renewed l t' q hl hr =>
    refine ⟨fun n hn u => ?_, fun _ => rfl⟩
    obtain rfl : s.generation = n := Option.some.inj hn
    exact hr.current hs hl hq u
  | emptied hl _ => exact ⟨fun _ h => (by cases h), fun h => (hempty hl h).elim⟩
  | idle hl _ => exact ⟨ht, fun h => (hempty hl h).elim⟩

/-! ## Uploads -/

/-- One upload for each uniform with a location, in the order given. -/
def uploads (us : List Uniform) (location : Uniform → Option Nat) (value : Uniform → Value) : Trace :=
  us.filterMap fun u => (location u).map fun n => said (.setUniform n (value u)) ()

theorem uploads_cons (u : Uniform) (us : List Uniform) (location : Uniform → Option Nat) (value : Uniform → Value) :
    uploads (u :: us) location value =
      match location u with
      | none => uploads us location value
      | some n => said (.setUniform n (value u)) () :: uploads us location value := by
  unfold uploads
  rw [List.filterMap_cons]
  cases location u <;> rfl

theorem mem_uploads {us : List Uniform} {location : Uniform → Option Nat} {value : Uniform → Value} {e : Entry} :
    e ∈ uploads us location value ↔ ∃ u ∈ us, ∃ n, location u = some n ∧ e = said (.setUniform n (value u)) () := by
  unfold uploads
  rw [List.mem_filterMap]
  constructor
  · rintro ⟨u, hu, he⟩
    obtain ⟨n, hn, rfl⟩ := Option.map_eq_some_iff.1 he
    exact ⟨u, hu, n, hn, rfl⟩
  · rintro ⟨u, hu, n, hn, rfl⟩
    exact ⟨u, hu, by rw [hn]; rfl⟩

theorem after_uploads (L : Ledger) (location : Uniform → Option Nat) (value : Uniform → Value) :
    ∀ us, L.after (uploads us location value) = L
  | [] => rfl
  | u :: us => by
    rw [uploads_cons]
    cases location u with
    | none => exact after_uploads L location value us
    | some n => exact after_uploads L location value us

theorem along_uploads {R : Ledger → Entry → Prop} {location : Uniform → Option Nat} {value : Uniform → Value}
    (h : ∀ u n, location u = some n → R L (said (.setUniform n (value u)) ())) :
    ∀ us, Along R L (uploads us location value)
  | [] => trivial
  | u :: us => by
    rw [uploads_cons]
    cases hl : location u with
    | none => exact along_uploads h us
    | some n => exact ⟨h u n hl, along_uploads h us⟩

theorem pushEach_calls (t : Table) : ∀ us,
    (t.pushEach us : Run σ Unit).Calls fun _ q => q = uploads us (fun u => (t.location u).index?) t.value
  | [] => fun _ => .pure ⟨rfl, rfl⟩
  | u :: us => by
    intro files
    unfold pushEach upload
    have hrest := pushEach_calls t us files
    rw [uploads_cons]
    cases (t.location u).index? with
    | none => exact hrest
    | some n => exact .ask fun _ => hrest.mono (fun _ q f h => ⟨by rw [h.1], h.2⟩)

end Table
end Uniform
end LiveShader
