import Lisplet.Proofs.NumeralFloats
import Lisplet.Proofs.PrintedTokens

/-!
# What the reader produces

Every form that is read from a source is made of readable names, numbers that are not NaNs or one of the
two NaNs with a name, truth values, characters and strings. The only other name is a hash and a backslash,
which is a word at the end of a source: such a form is that symbol alone behind quotation marks. So the
tokens of a form are laid out where it is printed, and forms that are printed alike are the same form but
for the signs of NaNs.
-/

namespace Lisplet

open Token

/-! ### Layouts in parts -/

/-- What is behind a layout is a part of the text. -/
theorem Token.Spells.suffix {ts : List Token} {t rest : Text} (h : Spells ts t rest) : rest <:+ t := by
  induction h with
  | nil => exact List.suffix_rfl
  | cons _ _ _ ih => exact (ih.trans (List.suffix_append _ _)).trans (List.suffix_append _ _)

/-- A layout of two rows of tokens is a layout of each. -/
theorem Token.Spells.of_append {ts us : List Token} {t rest : Text} (h : Spells (ts ++ us) t rest) :
    ∃ mid, Spells ts t mid ∧ Spells us mid rest := by
  induction ts generalizing t with
  | nil => exact ⟨t, .nil, h⟩
  | cons token ts ih =>
    cases h with
    | cons hg hstands h =>
      obtain ⟨mid, hts, hus⟩ := ih h
      exact ⟨mid, .cons hg hstands hts, hus⟩

theorem Token.Spells.ne_nil_of_rest {ts : List Token} {t rest : Text} (h : Spells ts t rest)
    (hrest : rest ≠ []) : t ≠ [] := by
  rintro rfl
  exact hrest (List.suffix_nil.mp h.suffix)

namespace Datum

/-! ### Forms -/

/-- What a source can denote: a datum whose names are readable, or a hash and a backslash at the end of the
source, with quotation marks in front. -/
inductive IsForm : Datum → Prop
  | plain {d : Datum} : d.HasNames IsReadableName → IsForm d
  | bare : IsForm (sym (text "#\\"))
  | quoted {mark symbol : Text} {d : Datum} : (mark, symbol) ∈ Reader.quotations → IsForm d →
      IsForm (prefixed symbol d)

/-- The symbols of the quotation marks are readable, and each is printed with its mark. -/
theorem isReadableName_of_mem_quotations {mark symbol : Text} (h : (mark, symbol) ∈ Reader.quotations) :
    IsReadableName symbol ∧ (symbol, mark) ∈ shorthands := by
  simp only [Reader.quotations, List.mem_cons, Prod.mk.injEq, List.not_mem_nil, or_false] at h
  rcases h with ⟨rfl, rfl⟩ | ⟨rfl, rfl⟩ | ⟨rfl, rfl⟩ | ⟨rfl, rfl⟩ <;>
    exact ⟨⟨⟨by decide, by decide⟩, by decide, by decide, by decide, by decide, rfl⟩, by decide⟩

theorem IsForm.hasNames {d : Datum} (h : d.IsForm) : d.HasNames IsReadName := by
  induction h with
  | plain h => exact h.imp fun _ => Or.inl
  | bare => exact Or.inr rfl
  | quoted hmem _ ih => exact ⟨Or.inl (isReadableName_of_mem_quotations hmem).1, ih, trivial⟩

/-- The atom of a token that stands in a source is a form, and its name is readable unless the source ends
there. -/
theorem isForm_of_denotesAtom {token : Token} {d : Datum} {more : Text} (h : DenotesAtom token d)
    (hstands : Stands token more) : d.IsForm ∧ (more ≠ [] → d.HasNames IsReadableName) := by
  have hplain : d.HasNames IsReadableName → d.IsForm ∧ (more ≠ [] → d.HasNames IsReadableName) :=
    fun hd => ⟨.plain hd, fun _ => hd⟩
  cases h with
  | numeral hparse =>
    refine hplain ?_
    cases ‹Numeral› with
    | int => trivial
    | float x => exact Numeral.isNaN_of_parse hparse
    | nan => trivial
  | @name w hparse hdot =>
    cases hstands with
    | symbol hword hbool hradix hblock hliteral hends =>
      by_cases hlit : [('#' : CodePoint), '\\'] <+: w
      · obtain ⟨hlength, rfl⟩ := hliteral hlit
        obtain rfl : [('#' : CodePoint), '\\'] = w := hlit.eq_of_length hlength.symm
        exact ⟨.bare, fun hne => absurd rfl hne⟩
      · exact hplain ⟨hword, hdot, hblock, hlit, hbool, hparse⟩
  | _ => exact hplain trivial

/-- The list of some data has the names of the data. -/
theorem hasNames_ofItems {names : Text → Prop} {ds : List Datum} {last : Datum}
    (hds : ∀ d ∈ ds, d.HasNames names) (hlast : last.HasNames names) :
    (ofItems ds last).HasNames names := by
  induction ds with
  | nil => exact hlast
  | cons d ds ih => exact ⟨hds d List.mem_cons_self, ih fun e he => hds e (List.mem_cons_of_mem d he)⟩

mutual

/-- A datum that tokens of a source denote is a form, and its names are readable unless the source ends
behind the tokens. -/
theorem isForm_of_denotes {ts : List Token} {d : Datum} {n : ℕ} {t more : Text} :
    Denotes ts d n → Spells ts t more → d.IsForm ∧ (more ≠ [] → d.HasNames IsReadableName)
  | .atom h, hspells => by
    cases hspells with
    | cons _ hstands hrest =>
      cases hrest with
      | nil => exact isForm_of_denotesAtom h hstands
  | .quoted hq h, hspells => by
    cases hspells with
    | cons _ _ hrest =>
      obtain ⟨hform, hnames⟩ := isForm_of_denotes h hrest
      exact ⟨.quoted hq.2 hform,
        fun hne => ⟨(isReadableName_of_mem_quotations hq.2).1, hnames hne, trivial⟩⟩
  | .list _ _ h, hspells => by
    cases hspells with
    | cons _ _ hrest =>
      obtain ⟨mid, hitems, hclose⟩ := hrest.of_append
      have hnames := (forall_isForm_of_denotesAll h hitems).2 (hclose.ne_nil (List.cons_ne_nil _ _))
      have hlist : (ofList _).HasNames IsReadableName := hasNames_ofItems hnames trivial
      exact ⟨.plain hlist, fun _ => hlist⟩
  | .dotted _ _ _ h _ hlast, hspells => by
    cases hspells with
    | cons _ _ hrest =>
      obtain ⟨mid, hitems, hdot⟩ := hrest.of_append
      have hnames := (forall_isForm_of_denotesAll h hitems).2 (hdot.ne_nil (List.cons_ne_nil _ _))
      cases hdot with
      | cons _ _ hrest =>
        obtain ⟨mid', hending, hclose⟩ := hrest.of_append
        have hend := (isForm_of_denotes hlast hending).2 (hclose.ne_nil (List.cons_ne_nil _ _))
        have hlist := hasNames_ofItems hnames hend
        exact ⟨.plain hlist, fun _ => hlist⟩

theorem forall_isForm_of_denotesAll {ts : List Token} {ds : List Datum} {n : ℕ} {t more : Text} :
    DenotesAll ts ds n → Spells ts t more →
      (∀ d ∈ ds, d.IsForm) ∧ (more ≠ [] → ∀ d ∈ ds, d.HasNames IsReadableName)
  | .nil, _ => ⟨nofun, nofun⟩
  | .cons h hds, hspells => by
    obtain ⟨mid, hfirst, hrest⟩ := hspells.of_append
    obtain ⟨hform, hnames⟩ := isForm_of_denotes h hfirst
    obtain ⟨hforms, hall⟩ := forall_isForm_of_denotesAll hds hrest
    exact ⟨List.forall_mem_cons.mpr ⟨hform, hforms⟩,
      fun hne => List.forall_mem_cons.mpr ⟨hnames (hrest.ne_nil_of_rest hne), hall hne⟩⟩

end

end Datum

/-- The forms of a reading do not depend on how the scan ends. -/
theorem Reader.run_forms (limit : ℕ) (scanFailure : Option ScanError) (ts : List Token) (r : Reader) :
    (run limit scanFailure ts r).forms = (run limit none ts r).forms := by
  induction ts generalizing r with
  | nil => rfl
  | cons token ts ih =>
    cases hstep : r.step limit token with
    | ok next => rw [run_cons_ok hstep, run_cons_ok hstep, ih next]
    | error e => rw [run_cons_error hstep, run_cons_error hstep]

/-- Whatever a source is, the data that are read from it are forms. -/
theorem isForm_of_mem_readAll {limit : ℕ} {source : Text} {d : Datum}
    (h : d ∈ (readAll limit source).forms) : d.IsForm := by
  obtain ⟨rest, hspells, -⟩ := exists_spells_scan source
  have hstart : Reader.Follows [] Reader.start := ⟨[], [], 0, rfl, .nil, .nothing⟩
  obtain ⟨done, behind, n, htokens, hdone, -⟩ :=
    Reader.run_of_follows limit hstart hspells.exists_stands
  rw [readAll, Reader.run_forms] at h
  rw [List.nil_append] at htokens
  rw [htokens] at hspells
  obtain ⟨mid, hspelled, -⟩ := hspells.of_append
  exact (Datum.forall_isForm_of_denotesAll hdone hspelled).1 d h

namespace Datum

/-! ### Forms are known from their text -/

/-- A form in which no marks merge is printed as its tokens. -/
theorem IsForm.spells {d : Datum} (h : d.IsForm) (hmarks : d.KeepsMarks) :
    Spells d.tokens (d.print .write) [] := by
  induction h with
  | plain h => simpa using spelled_print _ h hmarks [] closes_nil
  | bare =>
    have hstands : Stands ⟨.symbol, text "#\\"⟩ [] := by
      refine .symbol ⟨by decide, by decide⟩ (by decide) ?_ (by decide) (fun _ => ⟨rfl, rfl⟩) (by simp [EndsWord])
      intro n hn
      have hparse := Numeral.parse_of_radixWord hn
      simp [show Numeral.parse (text "#\\") = .ok none from rfl] at hparse
    exact .cons .nil hstands .nil
  | @quoted mark symbol d hmem h ih =>
    have hmem' := (isReadableName_of_mem_quotations hmem).2
    have hspells := ih hmarks.2.2.1
    have hne := hspells.ne_nil d.tokens_ne_nil
    have hstands := stands_markToken hmem' h.hasNames hmarks hne []
    rw [List.append_nil] at hstands
    rw [(prefixed_spec hmem' d).1, (prefixed_spec hmem' d).2]
    exact .cons .nil hstands hspells

/-- Forms in which no marks merge are the same form, but for the signs of NaNs, if they are printed alike. -/
theorem IsForm.made_eq_of_print_eq {d e : Datum} (h : d.IsForm) (h' : e.IsForm) (hmarks : d.KeepsMarks)
    (hmarks' : e.KeepsMarks) (hprint : d.print .write = e.print .write) : d.made = e.made := by
  have hscan := scan_eq_iff.mpr ⟨[], h.spells hmarks, .finished (.gap .nil)⟩
  have hscan' := scan_eq_iff.mpr ⟨[], h'.spells hmarks', .finished (.gap .nil)⟩
  rw [hprint, hscan'] at hscan
  have htokens : d.tokens ++ [] = e.tokens ++ [] := by rw [(Scan.mk.inj hscan).1]
  exact (made_eq_of_tokens_append d e h.hasNames h'.hasNames htokens).1

end Datum

end Lisplet
