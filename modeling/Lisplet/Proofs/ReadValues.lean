import Lisplet.Proofs.Copies
import Lisplet.Proofs.EqualityLaws
import Lisplet.Proofs.ReadForms

/-!
# Values that are read

The values that are made of forms, whatever sources the forms are read from. A value that is made of a
datum is written as the datum, and two values that are made of the same datum are equal. So values that are
read are told apart by their written forms, but for the signs of NaNs, as far as no marks merge: a comma in
front of a symbol whose name begins with an at sign is written like another mark.
-/

namespace Lisplet

/-! ### Values of the same datum -/

/-- Lists whose identities do not count compare as their first items and the rest. -/
theorem Value.compareSpec_cons_iff {c : Value.Comparison} (hobjects : ∀ i j, c.objects i j = true)
    {v v' w w' : Value} {i j : ObjectId} :
    Value.compareSpec c (.cons i v v') (.cons j w w') = true ↔
      Value.compareSpec c v w = true ∧ Value.compareSpec c v' w' = true := by
  cases v' <;> cases w' <;>
    simp [Value.cons, Value.items, Value.ending, Value.compareSpec, Value.compareRow, hobjects, and_assoc]

/-- The signs of the NaNs in a datum, in order. -/
def Datum.nanSigns : Datum → List Bool
  | .nan negative => [negative]
  | .pair head tail => head.nanSigns ++ tail.nanSigns
  | _ => []

theorem ne_nan_of_isNaN_eq_false {x : Float} (h : x.isNaN = false) : x ≠ 0.0 / 0.0 := by
  have hnan : (0.0 / 0.0 : Float).isNaN = true := by rfl
  rintro rfl
  rw [hnan] at h
  exact absurd h (by decide)

/-- Data that are made into the same have NaNs at the same places. -/
theorem Datum.length_nanSigns_eq {names : Text → Prop} {d e : Datum} (hd : d.HasNames names)
    (he : e.HasNames names) (h : d.made = e.made) : d.nanSigns.length = e.nanSigns.length := by
  induction d generalizing e with
  | float x =>
    cases e with
    | nan => exact absurd (Datum.float.inj h) (ne_nan_of_isNaN_eq_false hd)
    | float => rfl
    | _ => simp [made] at h
  | nan =>
    cases e with
    | nan => rfl
    | float x => exact absurd (Datum.float.inj h).symm (ne_nan_of_isNaN_eq_false he)
    | _ => simp [made] at h
  | pair head tail ih ih' =>
    cases e with
    | pair head' tail' =>
      obtain ⟨hhead, htail⟩ := Datum.pair.inj h
      rw [nanSigns, nanSigns, List.length_append, List.length_append, ih hd.1 he.1 hhead,
        ih' hd.2 he.2 htail]
    | _ => simp [made] at h
  | _ =>
    cases e with
    | nan | pair => simp [made] at h
    | _ => rfl

/-- Two values that are made of data that differ in the signs of NaNs at most are equal just if the data do
not differ. -/
theorem Store.Makes.compareSpec_iff {names : Text → Prop} {s : Store} {d e : Datum} {v w : Value}
    (hv : s.Makes d v) (hw : s.Makes e w) (hd : d.HasNames names) (he : e.HasNames names)
    (h : d.made = e.made) :
    Value.compareSpec (Value.alike s.content) v w = true ↔ d.nanSigns = e.nanSigns := by
  induction hv generalizing e w with
  | float x id =>
    cases hw with
    | nan => exact absurd (Datum.float.inj h) (ne_nan_of_isNaN_eq_false hd)
    | float y id' =>
      obtain rfl := Datum.float.inj h
      have hself : (x == x) = true := float_beq_self_iff.mpr hd
      simp [Value.compareSpec, Value.alike, Atom.equal, Atom.equivalent, floatEquivalent, hself,
        Datum.nanSigns]
    | _ => simp [Datum.made] at h
  | nan negative =>
    cases hw with
    | nan negative' =>
      have hself : ((0.0 / 0.0 : Float) == 0.0 / 0.0) = false := by rfl
      cases negative <;> cases negative' <;>
        simp [Value.compareSpec, Value.alike, Atom.equal, Atom.equivalent, floatEquivalent, hself,
          Datum.nanSigns, negativeNan, positiveNan]
    | float x => exact absurd (Datum.float.inj h).symm (ne_nan_of_isNaN_eq_false he)
    | _ => simp [Datum.made] at h
  | str hcontent =>
    cases hw with
    | str hcontent' =>
      have hsame := Datum.str.inj h
      simp [Value.compareSpec, Value.alike, Atom.equal, hcontent, hcontent', hsame, Datum.nanSigns]
    | _ => simp [Datum.made] at h
  | @pair head tail _ _ i _ _ ih ih' =>
    cases hw with
    | @pair head' tail' _ _ j hhead htail =>
      obtain ⟨h, h'⟩ := Datum.pair.inj h
      -- Halves that are made into the same have as many signs, so rows of signs agree just if their halves do.
      have hlength := Datum.length_nanSigns_eq hd.1 he.1 h
      rw [Value.compareSpec_cons_iff fun _ _ => rfl, ih hhead hd.1 he.1 h, ih' htail hd.2 he.2 h',
        Datum.nanSigns, Datum.nanSigns]
      exact ⟨fun hsigns => by rw [hsigns.1, hsigns.2], fun hsigns => List.append_inj hsigns hlength⟩
    | _ => simp [Datum.made] at h
  | unreadable => exact hd.elim
  | _ =>
    cases hw <;> simp_all [Datum.made, Value.compareSpec, Value.alike, Atom.equal, Atom.equivalent,
      Datum.nanSigns]

/-! ### Written forms of values that are made -/

namespace Datum

theorem floatText_nan : floatText (0.0 / 0.0) = floatStyle.notANumber := by rfl

/-- Making a value leaves a list behind its quotation symbol, if it has one. -/
theorem shorthand?_made (head tail : Datum) :
    shorthand? head.made tail.made = shorthand? head tail := by
  cases head with
  | sym name =>
    cases tail with
    | pair d rest => cases rest <;> rfl
    | _ => rfl
  | _ => rfl

mutual

/-- A value is written as the datum that it is made of. -/
theorem print_made {names : Text → Prop} : ∀ d : Datum, d.HasNames names →
    d.made.print .write = d.print .write
  | pair head tail, h => by
    rw [made, print, print, shorthand?_made, print_made head h.1, printRest_made tail h.2,
      printSecond_made tail h.2]
  | nan _, _ => floatText_nan
  | unreadable _, h => h.elim
  | nil, _ | int _, _ | float _, _ | bool _, _ | char _, _ | str _, _ | sym _, _ => rfl

theorem printRest_made {names : Text → Prop} : ∀ d : Datum, d.HasNames names →
    d.made.printRest .write = d.printRest .write
  | pair head tail, h => by
    rw [made, printRest, printRest, print_made head h.1, printRest_made tail h.2]
  | nan negative, _ => by
    have hatom : (float (0.0 / 0.0)).printAtom .write = (nan negative).printAtom .write := floatText_nan
    rw [made, printRest, printRest, hatom]
    all_goals exact nofun
  | unreadable _, h => h.elim
  | nil, _ | int _, _ | float _, _ | bool _, _ | char _, _ | str _, _ | sym _, _ => rfl

theorem printSecond_made {names : Text → Prop} : ∀ d : Datum, d.HasNames names →
    d.made.printSecond .write = d.printSecond .write
  | pair head _, h => print_made head h.1
  | unreadable _, h => h.elim
  | nil, _ | int _, _ | float _, _ | nan _, _ | bool _, _ | char _, _ | str _, _ | sym _, _ => rfl

end

end Datum

/-! ### Values that are read -/

/-- A value that was read as a form of some source, as it is in a store that still holds its strings. -/
structure Value.IsRead (s : Store) (v : Value) (d : Datum) : Prop where
  isRead : ∃ limit source, d ∈ (readAll limit source).forms
  isMade : ∃ s₀ s₁, Action.instantiate d s₀ = .ok v s₁ ∧ s₁.Keeps s

namespace Value.IsRead

variable {s : Store} {v w : Value} {d e : Datum}

theorem isForm (h : v.IsRead s d) : d.IsForm := by
  obtain ⟨_, _, hmem⟩ := h.isRead
  exact isForm_of_mem_readAll hmem

theorem makes (h : v.IsRead s d) : s.Makes d v := by
  obtain ⟨s₀, s₁, hv, hkeeps⟩ := h.isMade
  obtain ⟨w, s₂, hw, -, hmakes⟩ := Action.instantiate_makes d s₀
  rw [hv] at hw
  obtain ⟨rfl, rfl⟩ := EStateM.Result.ok.inj hw
  exact hmakes s hkeeps

/-- The written form of a value that was read is the text of its form. -/
theorem eq_print {t : Text} (h : v.IsRead s d) (ht : s.print .write v = .ok t) : t = d.print .write := by
  rw [Store.print] at ht
  split at ht
  · simp at ht
  · rw [← Except.ok.inj ht, h.makes.datum_eq, Datum.print_made d h.isForm.hasNames]

/-- Two values that were read from any sources and are written as the same text are equal, unless different
NaNs stand in them at the same place: all NaNs are written alike. No marks may merge in either of them. -/
theorem equal_iff_of_print_eq {t : Text} (hv : v.IsRead s d) (hw : w.IsRead s e) (hmarks : d.KeepsMarks)
    (hmarks' : e.KeepsMarks) (ht : s.print .write v = .ok t) (ht' : s.print .write w = .ok t) :
    Value.equal s.content v w = true ↔ d.nanSigns = e.nanSigns := by
  have hprint : d.print .write = e.print .write := (hv.eq_print ht).symm.trans (hw.eq_print ht')
  have hmade := hv.isForm.made_eq_of_print_eq hw.isForm hmarks hmarks' hprint
  rw [Value.equal, Value.comparePending_single]
  exact hv.makes.compareSpec_iff hw.makes hv.isForm.hasNames hw.isForm.hasNames hmade

end Value.IsRead

/-- A store with nothing in it, where the next objects have these identities. -/
def storeFrom (nextObject : ObjectId) : Store :=
  { Store.initial [] ⟨[], [], .ofText "/", []⟩ (.ofText "/") [] with nextObject := nextObject }

/-- The list that is read from a source of a quotation symbol and a name. -/
theorem isRead_list (id : ObjectId) {name item source : Text}
    (h : (readAll nestingLimit source).forms = [.prefixed name (.sym item)]) :
    (Value.list (id + 1) (.sym name) [.sym item] none).IsRead (storeFrom 2) (.prefixed name (.sym item)) where
  isRead := ⟨nestingLimit, source, by rw [h]; exact List.mem_singleton_self _⟩
  isMade := ⟨storeFrom id, storeFrom (id + 2), rfl, ⟨#[], rfl⟩⟩

/-- The spliced symbol of `,@x` and that of `(unquote-splicing x)` are written alike and equal. -/
theorem Value.IsRead.equal_iff_of_print_eq_splice :
    let v := Value.list 3 (.sym "unquote-splicing") [.sym "x"] none
    let w := Value.list 5 (.sym "unquote-splicing") [.sym "x"] none
    (∃ t, (storeFrom 2).print .write v = .ok t ∧ (storeFrom 2).print .write w = .ok t) ∧
      Value.equal (storeFrom 2).content v w = true := by
  have hread : (readAll nestingLimit (text ",@x")).forms = [.prefixed "unquote-splicing" (.sym "x")] := by rfl
  have hread' : (readAll nestingLimit (text "(unquote-splicing x)")).forms =
      [.prefixed "unquote-splicing" (.sym "x")] := by rfl
  have hv := isRead_list 2 hread
  have hw := isRead_list 4 hread'
  have hmarks : (Datum.prefixed "unquote-splicing" (.sym "x")).KeepsMarks := by
    refine ⟨?_, trivial, trivial, trivial⟩
    rintro ⟨name, hname, -⟩
    exact absurd (Datum.sym.inj hname) (by decide)
  exact ⟨⟨_, rfl, rfl⟩, (hv.equal_iff_of_print_eq hw hmarks hmarks rfl rfl).mpr rfl⟩

/-- The unquoted symbol of `(unquote @x)` is written as the spliced symbol of `,@x` is, and is another
datum. -/
theorem written_forms_alike : ∃ (v w : Value) (d e : Datum) (t : Text),
    v.IsRead (storeFrom 2) d ∧ w.IsRead (storeFrom 2) e ∧ (storeFrom 2).print .write v = .ok t ∧
      (storeFrom 2).print .write w = .ok t ∧ Value.equal (storeFrom 2).content v w = false := by
  have hread : (readAll nestingLimit (text "(unquote @x)")).forms = [.prefixed "unquote" (.sym "@x")] := by rfl
  have hread' : (readAll nestingLimit (text ",@x")).forms = [.prefixed "unquote-splicing" (.sym "x")] := by rfl
  refine ⟨_, _, _, _, _, isRead_list 2 hread, isRead_list 4 hread', rfl, rfl, ?_⟩
  rw [Value.equal, Value.comparePending_single]
  decide

end Lisplet
