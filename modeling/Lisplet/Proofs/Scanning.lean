import Lisplet.Proofs.Lexemes

/-!
# Scanning loses no text

`Spells` lays a source out as gaps and tokens in alternation, and `Ends` says how such a layout may end:
with the source, or in front of a string or a block comment that is never closed. Every source has such a
layout, and the scan gives exactly the tokens and the failure of it; so a source has only one.
-/

namespace Lisplet

namespace Token

/-- A source is made of these tokens, each with a gap in front of it, and of a rest. -/
inductive Spells : List Token → Text → Text → Prop
  | nil {rest : Text} : Spells [] rest rest
  | cons {g more rest : Text} {token : Token} {tokens : List Token} : Gap g → Stands token more →
      Spells tokens more rest → Spells (token :: tokens) (g ++ (token.lexeme ++ more)) rest

/-- What is left behind the last token: a gap through the end of the source, or a gap in front of a
string or a block comment that is never closed. -/
inductive Ends : Text → Option ScanError → Prop
  | finished {g : Text} : FinalGap g → Ends g none
  | comment {g t : Text} : Gap g → OpensBlock t → Ends (g ++ t) (some .unterminatedComment)
  | string {g t : Text} : Gap g → OpensString t → Ends (g ++ t) (some .unterminatedString)

theorem Stands.lexeme_ne_nil {token : Token} {more : Text} (h : Stands token more) :
    token.lexeme ≠ [] := by
  cases h with
  | boolean hw => exact (isWord_of_mem_booleanTexts hw).1
  | radix hw => exact hw.isWord.1
  | symbol hw => exact hw.1
  | _ => exact List.cons_ne_nil _ _

/-- Dropping a gap in front of a text that begins with none leaves that text. -/
theorem dropGap?_append_of_not_startsGap {g t : Text} (hg : Gap g) (ht : ¬StartsGap t) {fuel : Nat}
    (h : (g ++ t).length ≤ fuel) : dropGap? fuel (g ++ t) = some t := by
  rw [dropGap?_append hg h, dropGap?_of_not_startsGap ht]

/-- The scan of what is left behind the last token finds no further token. -/
theorem scanOnto_of_ends {rest : Text} {failure : Option ScanError} (h : Ends rest failure)
    {fuel : Nat} (hfuel : rest.length < fuel) (size : Nat) (done : List Token) :
    scanOnto size fuel rest done = ⟨done.reverse, failure⟩ := by
  obtain ⟨fuel, rfl⟩ := Nat.exists_eq_add_one.mpr (Nat.lt_of_le_of_lt (Nat.zero_le _) hfuel)
  have hle := Nat.le_of_lt_succ hfuel
  cases h with
  | finished hg => rw [scanOnto, dropGap?_of_finalGap hg hle]
  | comment hg ho => rw [scanOnto, dropGap?_of_opensBlock hg ho hle]
  | string hg ho =>
    have hns := ho.not_startsGap
    obtain ⟨body, rfl, _⟩ := id ho
    rw [scanOnto, dropGap?_append_of_not_startsGap hg hns hle]
    simp [(splitFirst?_of_opensString ho).2, refusal]

/-- The scan finds the tokens that a source is made of. -/
theorem scanOnto_of_spells {tokens : List Token} {t rest : Text} {failure : Option ScanError}
    (h : Spells tokens t rest) (hend : Ends rest failure) {fuel : Nat} (hfuel : t.length < fuel)
    (size : Nat) (done : List Token) :
    scanOnto size fuel t done = ⟨done.reverse ++ tokens, failure⟩ := by
  induction h generalizing fuel done with
  | nil => rw [scanOnto_of_ends hend hfuel, List.append_nil]
  | @cons g more rest token tokens hg hstands _ ih =>
    obtain ⟨fuel, rfl⟩ := Nat.exists_eq_add_one.mpr (Nat.lt_of_le_of_lt (Nat.zero_le _) hfuel)
    have hle := Nat.le_of_lt_succ hfuel
    obtain ⟨c, tail, he, hns, hfirst⟩ := hstands.splitFirst?_eq
    have hmore : more.length < fuel := by
      have hpos := List.length_pos_iff.mpr hstands.lexeme_ne_nil
      simp only [List.length_append] at hle
      omega
    rw [he] at hle ⊢
    rw [scanOnto, dropGap?_append_of_not_startsGap hg hns hle]
    simp only [hfirst, ih hend hmore, List.reverse_cons, List.append_assoc, List.singleton_append]

/-- Every source is made of tokens and gaps up to a place where it ends or stops the scan. -/
theorem exists_spells (t : Text) :
    ∃ tokens rest failure, Spells tokens t rest ∧ Ends rest failure := by
  induction hn : t.length using Nat.strongRecOn generalizing t with
  | ind n ih =>
    rcases exists_gap_split t with ⟨g, c, rest, hg, hns, rfl⟩ | hfinal | ⟨g, rest, hg, ho, rfl⟩
    · rcases exists_token hns with ⟨token, more, hstands, he⟩ | ho
      · have hlt : more.length < n := by
          have hpos := List.length_pos_iff.mpr hstands.lexeme_ne_nil
          rw [he] at hn
          simp only [List.length_append] at hn
          omega
        obtain ⟨tokens, rest', failure, hspells, hend⟩ := ih _ hlt more rfl
        rw [he]
        exact ⟨token :: tokens, rest', failure, .cons hg hstands hspells, hend⟩
      · exact ⟨[], _, _, .nil, .string hg ho⟩
    · exact ⟨[], t, none, .nil, .finished hfinal⟩
    · exact ⟨[], _, _, .nil, .comment hg ho⟩

/-- The scan gives exactly the tokens and the failure of the layout of a source. -/
theorem scan_eq_iff {source : Text} {tokens : List Token} {failure : Option ScanError} :
    scan source = ⟨tokens, failure⟩ ↔ ∃ rest, Spells tokens source rest ∧ Ends rest failure := by
  have hscan : ∀ tokens rest failure, Spells tokens source rest → Ends rest failure →
      scan source = ⟨tokens, failure⟩ := fun _ _ _ h hend => scanOnto_of_spells h hend (by simp) _ []
  constructor
  · intro h
    obtain ⟨tokens', rest, failure', hspells, hend⟩ := exists_spells source
    have he := h.symm.trans (hscan _ _ _ hspells hend)
    obtain ⟨rfl, rfl⟩ := Scan.mk.inj he
    exact ⟨rest, hspells, hend⟩
  · rintro ⟨rest, hspells, hend⟩
    exact hscan _ _ _ hspells hend

/-- The layout that the scan of a source finds. -/
theorem exists_spells_scan (source : Text) :
    ∃ rest, Spells (scan source).tokens source rest ∧ Ends rest (scan source).failure :=
  scan_eq_iff.mp rfl

/-- A token is taken off a source where it stands, and what follows it is scanned as a source of its own. -/
theorem scan_append_of_stands {token : Token} {more : Text} (h : Stands token more) :
    scan (token.lexeme ++ more) = ⟨token :: (scan more).tokens, (scan more).failure⟩ := by
  obtain ⟨rest, hspells, hend⟩ := exists_spells_scan more
  exact scan_eq_iff.mpr ⟨rest, .cons .nil h hspells, hend⟩

/-- Every token of a layout stands where it is. -/
theorem Spells.exists_stands {tokens : List Token} {t rest : Text} (h : Spells tokens t rest) :
    ∀ token ∈ tokens, ∃ more, Stands token more := by
  induction h with
  | nil => simp
  | cons _ hstands _ ih => exact List.forall_mem_cons.mpr ⟨⟨_, hstands⟩, ih⟩

/-- Scanning loses no text. The source is the tokens, each of the shape of its sort and with a gap in
front, and a rest: a gap through the end if the scan reaches it, and otherwise a gap in front of a string
or a block comment that is never closed. There is no other failure. -/
theorem scan_loses_no_text (source : Text) :
    ∃ rest, Spells (scan source).tokens source rest ∧
      (∀ token ∈ (scan source).tokens, token.lexeme ≠ []) ∧
      match (scan source).failure with
      | none => FinalGap rest
      | some .unterminatedComment => ∃ g t, rest = g ++ t ∧ Gap g ∧ OpensBlock t
      | some .unterminatedString => ∃ g t, rest = g ++ t ∧ Gap g ∧ OpensString t
      | some (.unexpected _ _) => False := by
  obtain ⟨rest, hspells, hend⟩ := exists_spells_scan source
  refine ⟨rest, hspells, ?_, ?_⟩
  · intro token hmem
    obtain ⟨more, hstands⟩ := hspells.exists_stands token hmem
    exact hstands.lexeme_ne_nil
  · generalize (scan source).failure = failure at hend
    cases hend with
    | finished hg => exact hg
    | comment hg ho => exact ⟨_, _, rfl, hg, ho⟩
    | string hg ho => exact ⟨_, _, rfl, hg, ho⟩

end Token

end Lisplet
