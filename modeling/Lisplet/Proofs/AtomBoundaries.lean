import Lisplet.Proofs.Scanning

/-!
# Where an atom ends and the next begins

Symbols, truth values, integers with a radix mark and characters have no mark at their end. The first three are
words and run to the next delimiter, and no atom begins with one, so a blank or a comment stands between a word and
an atom that comes next. A character literal takes its name and does not look at what follows: whatever stands
behind it is scanned as a source of its own, and so an atom may touch it.

To speak of what lies between two tokens, the layout of a source keeps the gap in front of each token. A source has
one layout.
-/

namespace Lisplet

namespace Token

/-- A token without a mark at its end. -/
def IsAtom (token : Token) : Prop :=
  token.kind = .symbol ∨ token.kind = .boolean ∨ token.kind = .radix ∨ token.kind = .character

/-! ### Layouts with their gaps -/

/-- A token of a source and the gap in front of it. -/
structure Placed where
  gap : Text
  token : Token

/-- A source is these tokens, each behind its gap, and a rest. -/
inductive LaysOut : List Placed → Text → Text → Prop
  | nil {rest : Text} : LaysOut [] rest rest
  | cons {g more rest : Text} {token : Token} {layout : List Placed} : Gap g → Stands token more →
      LaysOut layout more rest → LaysOut (⟨g, token⟩ :: layout) (g ++ (token.lexeme ++ more)) rest

/-- All tokens of a source with their gaps, up to where the source ends or stops the scan. -/
def IsLayout (source : Text) (layout : List Placed) : Prop :=
  ∃ rest failure, LaysOut layout source rest ∧ Ends rest failure

theorem LaysOut.spells {layout : List Placed} {t rest : Text} (h : LaysOut layout t rest) :
    Spells (layout.map (·.token)) t rest := by
  induction h with
  | nil => exact .nil
  | cons hg hstands _ ih => exact .cons hg hstands ih

theorem Spells.exists_laysOut {tokens : List Token} {t rest : Text} (h : Spells tokens t rest) :
    ∃ layout, LaysOut layout t rest := by
  induction h with
  | nil => exact ⟨[], .nil⟩
  | cons hg hstands _ ih =>
    obtain ⟨layout, hlayout⟩ := ih
    exact ⟨_, .cons hg hstands hlayout⟩

/-- A text has one gap in front of what begins with none. -/
theorem Gap.append_inj {g g' t t' : Text} (hg : Gap g) (hg' : Gap g') (ht : ¬StartsGap t) (ht' : ¬StartsGap t')
    (h : g ++ t = g' ++ t') : g = g' ∧ t = t' := by
  have hdrop := dropGap?_append_of_not_startsGap hg ht (Nat.le_refl _)
  rw [h, dropGap?_append_of_not_startsGap hg' ht' (Nat.le_refl _)] at hdrop
  obtain rfl := Option.some.inj hdrop
  exact ⟨List.append_cancel_right h, rfl⟩

theorem Stands.not_startsGap {token : Token} {more : Text} (h : Stands token more) :
    ¬StartsGap (token.lexeme ++ more) := by
  obtain ⟨c, rest, he, hns, -⟩ := h.splitFirst?_eq
  rwa [he]

/-- The tokens of a text determine their gaps. -/
theorem LaysOut.eq_of_tokens_eq {layout layout' : List Placed} {t rest rest' : Text} (h : LaysOut layout t rest)
    (h' : LaysOut layout' t rest') (htokens : layout.map (·.token) = layout'.map (·.token)) :
    layout = layout' := by
  induction h generalizing layout' with
  | nil => exact (List.map_eq_nil_iff.mp htokens.symm).symm
  | @cons g more rest token layout hg hstands _ ih =>
    generalize ht : g ++ (token.lexeme ++ more) = t at h'
    cases h' with
    | nil => cases htokens
    | @cons g' more' _ token' layout' hg' hstands' hlayout' =>
      obtain ⟨htoken, hmap⟩ := List.cons.inj htokens
      obtain rfl : token = token' := htoken
      obtain ⟨rfl, hmore⟩ := hg.append_inj hg' hstands.not_startsGap hstands'.not_startsGap ht
      obtain rfl := List.append_cancel_left hmore
      rw [ih hlayout' hmap]

theorem IsLayout.tokens_eq {source : Text} {layout : List Placed} (h : IsLayout source layout) :
    layout.map (·.token) = (scan source).tokens := by
  obtain ⟨rest, failure, hlayout, hend⟩ := h
  rw [scan_eq_iff.mpr ⟨rest, hlayout.spells, hend⟩]

/-- Every source has one layout. -/
theorem existsUnique_isLayout (source : Text) : ∃! layout, IsLayout source layout := by
  obtain ⟨rest, hspells, hend⟩ := exists_spells_scan source
  obtain ⟨layout, hlayout⟩ := hspells.exists_laysOut
  have his : IsLayout source layout := ⟨rest, _, hlayout, hend⟩
  refine ⟨layout, his, fun other hother => ?_⟩
  obtain ⟨_, _, hlayout', -⟩ := id hother
  exact hlayout'.eq_of_tokens_eq hlayout (hother.tokens_eq.trans his.tokens_eq.symm)

/-! ### Atoms next to each other -/

/-- No atom begins with a delimiter. -/
theorem Stands.head_of_isAtom {token : Token} {more : Text} (h : Stands token more) (hatom : token.IsAtom) :
    ∃ c t, token.lexeme = c :: t ∧ c.isDelimiter = false := by
  have hword : ∀ {w : Text}, IsWord w → ∃ c t, w = c :: t ∧ c.isDelimiter = false := by
    rintro w ⟨hne, hw⟩
    obtain ⟨c, t, rfl⟩ := List.exists_cons_of_ne_nil hne
    exact ⟨c, t, rfl, hw c List.mem_cons_self⟩
  have hhash : CodePoint.isDelimiter '#' = false := by decide
  cases h with
  | boolean hw => exact hword (isWord_of_mem_booleanTexts hw)
  | radix hw => exact hword hw.isWord
  | symbol hw => exact hword hw
  | named | single => exact ⟨_, _, rfl, hhash⟩
  | _ => simp [IsAtom] at hatom

/-- An atom that is no character ends in front of a delimiter or with the source. -/
theorem Stands.endsWord {token : Token} {more : Text} (h : Stands token more) (hatom : token.IsAtom)
    (hkind : token.kind ≠ .character) : EndsWord more := by
  cases h with
  | boolean _ hmore | radix _ hmore => exact hmore
  | symbol _ _ _ _ _ hmore => exact hmore
  | named | single => exact absurd rfl hkind
  | _ => simp [IsAtom] at hatom

/-- A gap that is not empty begins with a blank or with the mark of a comment. -/
theorem Gap.startsGap {g : Text} (h : Gap g) (hne : g ≠ []) : StartsGap g := by
  cases h with
  | nil => exact absurd rfl hne
  | blank hc => exact .inl hc
  | line => exact .inr (.inl rfl)
  | block => exact .inr (.inr ⟨rfl, rfl⟩)

/-- Two tokens of which the second one comes next have a blank or a comment between them, if they are atoms. -/
def StandApart (a b : Placed) : Prop := a.token.IsAtom → b.token.IsAtom → StartsGap b.gap

/-- Between a word and an atom that comes next there is a blank or a comment. -/
theorem Stands.standApart {a b : Token} {front g more : Text} (ha : Stands a (g ++ (b.lexeme ++ more)))
    (hkind : a.kind ≠ .character) (hg : Gap g) (hb : Stands b more) : StandApart ⟨front, a⟩ ⟨g, b⟩ := by
  intro hatom hatom'
  refine hg.startsGap ?_
  rintro rfl
  obtain ⟨c, t, hlexeme, hc⟩ := hb.head_of_isAtom hatom'
  have hends := ha.endsWord hatom hkind
  rw [List.nil_append, hlexeme] at hends
  exact absurd (hends c rfl) (by simp [hc])

/-- Along a layout atoms stand apart, except behind characters. -/
theorem LaysOut.isChain {layout : List Placed} {t rest : Text} (h : LaysOut layout t rest) :
    layout.IsChain fun a b => a.token.kind ≠ .character → StandApart a b := by
  induction h with
  | nil => exact .nil
  | cons _ hstands hlayout ih =>
    cases hlayout with
    | nil => exact .singleton _
    | cons hg hstands' => exact .cons_cons (fun hkind => hstands.standApart hkind hg hstands') ih

/-! ### Behind a character -/

/-- What stands behind `#\` and in front of this text makes a character literal: a name, or a single code point
where no name stands. -/
inductive IsTaken : Text → Text → Prop
  | named {name more : Text} : name ∈ nameTexts → IsTaken name more
  | single {c : CodePoint} {more : Text} : (∀ name ∈ nameTexts, ¬name <+: c :: more) → IsTaken [c] more

theorem IsTaken.stands {name more : Text} (h : IsTaken name more) :
    Stands ⟨.character, '#' :: '\\' :: name⟩ more := by
  cases h with
  | named hname => exact .named hname
  | single hname => exact .single hname

/-- Atoms never touch, except that anything may touch a character literal in front of it. The layout of a source is
one; along it a blank or a comment stands between two atoms, if the first of them is no character. A character
literal is a token whatever stands behind it, and that is scanned as a source of its own. -/
theorem atoms_touch_only_behind_characters (source : Text) :
    (∃! layout, IsLayout source layout) ∧
    (∀ layout, IsLayout source layout → layout.map (·.token) = (scan source).tokens ∧
      layout.IsChain fun a b => a.token.kind ≠ .character → StandApart a b) ∧
    ∀ name, IsTaken name source → scan ('#' :: '\\' :: (name ++ source)) =
      ⟨⟨.character, '#' :: '\\' :: name⟩ :: (scan source).tokens, (scan source).failure⟩ := by
  refine ⟨existsUnique_isLayout source, fun layout hlayout => ⟨hlayout.tokens_eq, ?_⟩, fun name hname => ?_⟩
  · obtain ⟨_, _, hlaysOut, -⟩ := hlayout
    exact hlaysOut.isChain
  · exact scan_append_of_stands hname.stands

/-- The character newline and a name that touches it. -/
def touchingSource : Text := text "#\\newlinex"

/-- The layout of that source: two tokens without a gap. -/
theorem laysOut_touchingSource :
    LaysOut [⟨[], ⟨.character, text "#\\newline"⟩⟩, ⟨[], ⟨.symbol, text "x"⟩⟩] touchingSource [] := by
  have hname : text "newline" ∈ nameTexts := by decide
  have hword : IsWord (text "x") := ⟨by decide, by decide⟩
  have hx : Stands ⟨.symbol, text "x"⟩ [] := stands_symbol_of_not_hash hword (by decide) (by simp [EndsWord])
  exact .cons .nil (.named hname) (.cons .nil hx .nil)

/-- Atoms do not always stand apart in a source that the scan takes apart to its end. -/
theorem not_atoms_always_stand_apart :
    ¬∀ source layout, (scan source).failure = none → IsLayout source layout → layout.IsChain StandApart := by
  intro h
  have hend : Ends [] none := .finished (.gap .nil)
  have hscan := scan_eq_iff.mpr ⟨[], laysOut_touchingSource.spells, hend⟩
  have hchain := h touchingSource _ (by rw [hscan]) ⟨[], none, laysOut_touchingSource, hend⟩
  rw [List.isChain_cons_cons] at hchain
  exact hchain.1 (.inr (.inr (.inr rfl))) (.inl rfl)

end Token

end Lisplet
