import Mathlib.Tactic.Common
import Lisplet.Token

/-!
# The gaps between tokens

What may stand between two tokens: blanks, comments that run through the end of their line, and block
comments, in which `#|` and `|#` are counted from left to right. The relations here say so without a
scanner; the functions that drop a gap, a line and a block comment are shown to take exactly such texts,
and to give up exactly at a block comment that no text closes.
-/

namespace Lisplet

namespace Token

/-- What is left of a block comment when `depth` comments are open around the innermost one: the text
through the mark that closes the outermost. -/
inductive BlockRest : Nat → Text → Prop
  | close : BlockRest 0 ['|', '#']
  | leave {depth : Nat} {t : Text} : BlockRest depth t → BlockRest (depth + 1) ('|' :: '#' :: t)
  | enter {depth : Nat} {t : Text} : BlockRest (depth + 1) t → BlockRest depth ('#' :: '|' :: t)
  | plain {depth : Nat} {c d : CodePoint} {t : Text} : ¬(c = '#' ∧ d = '|') → ¬(c = '|' ∧ d = '#') →
      BlockRest depth (d :: t) → BlockRest depth (c :: d :: t)

/-- A row of blanks, comments through the end of their line, and balanced block comments. -/
inductive Gap : Text → Prop
  | nil : Gap []
  | blank {c : CodePoint} {g : Text} : c.isBlank = true → Gap g → Gap (c :: g)
  | line {body g : Text} : ('\n' : CodePoint) ∉ body → Gap g → Gap (';' :: (body ++ ('\n' : CodePoint) :: g))
  | block {body g : Text} : BlockRest 0 body → Gap g → Gap ('#' :: '|' :: (body ++ g))

/-- A gap at the end of a source, where a comment needs no end of its line. -/
inductive FinalGap : Text → Prop
  | gap {g : Text} : Gap g → FinalGap g
  | comment {g body : Text} : Gap g → ('\n' : CodePoint) ∉ body → FinalGap (g ++ (';' : CodePoint) :: body)

/-- Whether a text begins with a blank or with the mark of a comment. -/
def StartsGap : Text → Prop
  | [] => False
  | c :: rest => c.isBlank = true ∨ c = ';' ∨ c = '#' ∧ rest.head? = some ('|' : CodePoint)

/-- A text that begins with a block comment that is never closed. -/
def OpensBlock (t : Text) : Prop :=
  ∃ body, t = ('#' : CodePoint) :: '|' :: body ∧ ∀ b r, body = b ++ r → ¬BlockRest 0 b

/-! ### Lines and block comments -/

/-- Dropping a line takes a comment through the first line feed. -/
theorem dropLine_append {body : Text} (h : ('\n' : CodePoint) ∉ body) (r : Text) :
    dropLine (body ++ ('\n' : CodePoint) :: r) = r := by
  induction body with
  | nil => simp [dropLine]
  | cons c body ih =>
    rw [List.mem_cons, not_or] at h
    have hc : ¬c = ('\n' : CodePoint) := fun he => h.1 he.symm
    simpa only [List.cons_append, dropLine, hc, if_false] using ih h.2

/-- A text is a line through its line feed with the rest after it, or a line without line feed. -/
theorem dropLine_spec (t : Text) :
    (∃ body, ('\n' : CodePoint) ∉ body ∧ t = body ++ ('\n' : CodePoint) :: dropLine t) ∨
      ('\n' : CodePoint) ∉ t ∧ dropLine t = [] := by
  induction t with
  | nil => exact Or.inr ⟨by simp, rfl⟩
  | cons c t ih =>
    by_cases hc : c = ('\n' : CodePoint)
    · refine Or.inl ⟨[], by simp, ?_⟩
      simp [dropLine, hc]
    · have hne : ¬('\n' : CodePoint) = c := fun he => hc he.symm
      simp only [dropLine, hc, if_false]
      rcases ih with ⟨body, hbody, he⟩ | ⟨hmem, he⟩
      · refine Or.inl ⟨c :: body, ?_, ?_⟩
        · simpa [hne] using hbody
        · rw [List.cons_append, ← he]
      · exact Or.inr ⟨by simpa [hne] using hmem, he⟩

theorem length_dropLine_le (t : Text) : (dropLine t).length ≤ t.length := by
  rcases dropLine_spec t with ⟨body, _, he⟩ | ⟨_, he⟩
  · have hl := congrArg List.length he
    simp only [List.length_append, List.length_cons] at hl
    omega
  · rw [he]
    exact Nat.zero_le _

/-- Dropping a block comment takes exactly its rest and leaves what follows. -/
theorem dropBlock?_append {depth : Nat} {b : Text} (h : BlockRest depth b) (r : Text) :
    dropBlock? depth (b ++ r) = some r := by
  induction h with
  | close => simp [dropBlock?]
  | leave _ ih => simpa [dropBlock?] using ih
  | enter _ ih => simpa [dropBlock?] using ih
  | plain hopen hclose _ ih =>
    simpa only [List.cons_append, dropBlock?, hopen, hclose, if_false] using ih

/-- Only the rest of a block comment is dropped. -/
theorem blockRest_of_dropBlock? {depth : Nat} {t r : Text} (h : dropBlock? depth t = some r) :
    ∃ b, BlockRest depth b ∧ t = b ++ r := by
  fun_induction dropBlock? depth t with
  | case1 => simp at h
  | case2 => simp at h
  | case3 depth a b rest ho ih =>
    obtain ⟨body, hbody, rfl⟩ := ih h
    obtain ⟨rfl, rfl⟩ := ho
    exact ⟨_, .enter hbody, rfl⟩
  | case4 a b rest _ hc =>
    obtain ⟨rfl, rfl⟩ := hc
    obtain rfl := Option.some.inj h
    exact ⟨_, .close, rfl⟩
  | case5 a b rest _ hc outer ih =>
    obtain ⟨body, hbody, rfl⟩ := ih h
    obtain ⟨rfl, rfl⟩ := hc
    exact ⟨_, .leave hbody, rfl⟩
  | case6 depth a b rest ho hc ih =>
    obtain ⟨body, hbody, he⟩ := ih h
    cases body with
    | nil => cases hbody
    | cons d body =>
      obtain ⟨rfl, rfl⟩ := List.cons.inj he
      exact ⟨a :: b :: body, .plain ho hc hbody, rfl⟩

theorem length_lt_of_dropBlock? {depth : Nat} {t r : Text} (h : dropBlock? depth t = some r) :
    r.length < t.length := by
  obtain ⟨b, hb, rfl⟩ := blockRest_of_dropBlock? h
  have hb : 0 < b.length := by
    cases hb <;> simp
  rw [List.length_append]
  omega

/-- The mark of a block comment stands in front of a text exactly when its two code points do. -/
theorem afterBlockOpen?_eq_some_iff {t body : Text} :
    afterBlockOpen? t = some body ↔ t = ('#' : CodePoint) :: '|' :: body := by
  match t with
  | [] => simp [afterBlockOpen?]
  | [a] => simp [afterBlockOpen?]
  | a :: b :: rest =>
    by_cases h : a = ('#' : CodePoint) ∧ b = ('|' : CodePoint)
    · simp [afterBlockOpen?, h]
    · simp only [afterBlockOpen?, h, if_false, List.cons.injEq, reduceCtorEq, false_iff]
      exact fun he => h ⟨he.1, he.2.1⟩

theorem afterBlockOpen?_eq_none {c : CodePoint} {rest : Text}
    (h : ¬(c = '#' ∧ rest.head? = some ('|' : CodePoint))) :
    afterBlockOpen? (c :: rest) = none := by
  rw [Option.eq_none_iff_forall_not_mem]
  intro body hbody
  have he := afterBlockOpen?_eq_some_iff.mp hbody
  obtain ⟨rfl, rfl⟩ := List.cons.inj he
  exact h ⟨rfl, rfl⟩

/-! ### Whole gaps -/

/-- No blank is the mark of a comment. -/
theorem isBlank_semicolon : CodePoint.isBlank ';' = false := by decide

/-- Nor is the first code point of the marks of a block comment. -/
theorem isBlank_hash : CodePoint.isBlank '#' = false := by decide

/-- Dropping a gap stops in front of a text that begins with none. -/
theorem dropGap?_of_not_startsGap {t : Text} (h : ¬StartsGap t) (fuel : Nat) :
    dropGap? fuel t = some t := by
  cases fuel with
  | zero => rfl
  | succ fuel =>
    cases t with
    | nil => rfl
    | cons c rest =>
      simp only [StartsGap, not_or] at h
      simp only [dropGap?, h.1, h.2.1, if_false, afterBlockOpen?_eq_none h.2.2]
      rfl

/-- More fuel than code points makes no difference. -/
theorem dropGap?_succ {fuel : Nat} {t : Text} (h : t.length ≤ fuel) :
    dropGap? (fuel + 1) t = dropGap? fuel t := by
  induction fuel generalizing t with
  | zero =>
    rw [List.eq_nil_of_length_eq_zero (Nat.le_zero.mp h)]
    rfl
  | succ fuel ih =>
    cases t with
    | nil => rfl
    | cons c rest =>
      have hrest : rest.length ≤ fuel := Nat.le_of_succ_le_succ h
      rw [dropGap?, dropGap?]
      rw [ih hrest, ih (Nat.le_trans (length_dropLine_le rest) hrest)]
      cases ho : afterBlockOpen? (c :: rest) with
      | none => rfl
      | some body =>
        obtain ⟨rfl, rfl⟩ := List.cons.inj (afterBlockOpen?_eq_some_iff.mp ho)
        -- A block comment leaves less than it began with, so the hypothesis holds behind it, too.
        have hbind : (dropBlock? 0 body).bind (dropGap? (fuel + 1)) =
            (dropBlock? 0 body).bind (dropGap? fuel) := by
          cases hb : dropBlock? 0 body with
          | none => rfl
          | some r =>
            have hr := length_lt_of_dropBlock? hb
            rw [List.length_cons] at hrest
            exact ih (show r.length ≤ fuel by omega)
        simp only [hbind]

/-- The fuel that a gap takes does not matter as long as there is enough. -/
theorem dropGap?_eq_length {fuel : Nat} {t : Text} (h : t.length ≤ fuel) :
    dropGap? fuel t = dropGap? t.length t := by
  induction h with
  | refl => rfl
  | step h ih => rw [dropGap?_succ h, ih]

/-- A gap in front of a text is dropped whole. -/
theorem dropGap?_append {g : Text} (hg : Gap g) {fuel : Nat} {r : Text}
    (h : (g ++ r).length ≤ fuel) : dropGap? fuel (g ++ r) = dropGap? r.length r := by
  induction hg generalizing fuel with
  | nil => exact dropGap?_eq_length h
  | @blank c g hc _ ih =>
    obtain ⟨fuel, rfl⟩ := Nat.exists_eq_add_one.mpr (Nat.lt_of_lt_of_le (Nat.succ_pos _) h)
    rw [List.cons_append, dropGap?, if_pos hc]
    exact ih (Nat.le_of_succ_le_succ h)
  | @line body g hbody _ ih =>
    obtain ⟨fuel, rfl⟩ := Nat.exists_eq_add_one.mpr (Nat.lt_of_lt_of_le (Nat.succ_pos _) h)
    rw [List.cons_append, List.append_assoc, List.cons_append, dropGap?, isBlank_semicolon,
      if_neg Bool.false_ne_true, if_pos rfl, dropLine_append hbody]
    apply ih
    simp only [List.length_append, List.length_cons] at h ⊢
    omega
  | @block body g hbody _ ih =>
    obtain ⟨fuel, rfl⟩ := Nat.exists_eq_add_one.mpr (Nat.lt_of_lt_of_le (Nat.succ_pos _) h)
    rw [List.cons_append, List.cons_append, List.append_assoc, dropGap?, isBlank_hash,
      if_neg Bool.false_ne_true, if_neg (by simp), afterBlockOpen?_eq_some_iff.mpr rfl]
    simp only [dropBlock?_append hbody, Option.bind_some]
    apply ih
    simp only [List.length_append, List.length_cons] at h ⊢
    omega

/-- A gap that ends a source is dropped whole. -/
theorem dropGap?_of_finalGap {t : Text} (ht : FinalGap t) {fuel : Nat} (h : t.length ≤ fuel) :
    dropGap? fuel t = some [] := by
  cases ht with
  | gap hg =>
    have hfuel : (t ++ []).length ≤ fuel := by simpa using h
    have he := dropGap?_append hg hfuel
    simpa [dropGap?] using he
  | @comment g body hg hbody =>
    rw [dropGap?_append hg h, List.length_cons, dropGap?, isBlank_semicolon,
      if_neg Bool.false_ne_true, if_pos rfl]
    rcases dropLine_spec body with ⟨line, _, he⟩ | ⟨_, he⟩
    · exact absurd (by rw [he]; simp) hbody
    · rw [he]
      exact dropGap?_of_not_startsGap (by simp [StartsGap]) _

/-- A block comment that is never closed stops the dropping of a gap in front of it. -/
theorem dropGap?_of_opensBlock {g t : Text} (hg : Gap g) (ht : OpensBlock t) {fuel : Nat}
    (h : (g ++ t).length ≤ fuel) : dropGap? fuel (g ++ t) = none := by
  obtain ⟨body, rfl, hopen⟩ := ht
  have hnone : dropBlock? 0 body = none := by
    rw [Option.eq_none_iff_forall_not_mem]
    intro r hr
    obtain ⟨b, hb, he⟩ := blockRest_of_dropBlock? hr
    exact hopen b r he hb
  rw [dropGap?_append hg h, List.length_cons, dropGap?, isBlank_hash, if_neg Bool.false_ne_true,
    if_neg (by simp), afterBlockOpen?_eq_some_iff.mpr rfl]
  simp only [hnone, Option.bind_none]

theorem Gap.append {g g' : Text} (h : Gap g) (h' : Gap g') : Gap (g ++ g') := by
  induction h with
  | nil => exact h'
  | blank hc _ ih => exact .blank hc ih
  | line hbody _ ih => simpa only [List.cons_append, List.append_assoc] using Gap.line hbody ih
  | block hbody _ ih => simpa only [List.cons_append, List.append_assoc] using Gap.block hbody ih

theorem FinalGap.prepend {g t : Text} (h : Gap g) (h' : FinalGap t) : FinalGap (g ++ t) := by
  cases h' with
  | gap ht => exact .gap (h.append ht)
  | comment ht hbody =>
    rw [← List.append_assoc]
    exact .comment (h.append ht) hbody

/-- A text that begins a gap has a piece of it in front, unless it is a comment without end of line or
a block comment that is never closed. -/
theorem StartsGap.cases {t : Text} (h : StartsGap t) :
    (∃ g r, Gap g ∧ g ≠ [] ∧ t = g ++ r) ∨ FinalGap t ∨ OpensBlock t := by
  match t, h with
  | c :: rest, Or.inl hc => exact Or.inl ⟨[c], rest, .blank hc .nil, by simp, rfl⟩
  | _ :: rest, Or.inr (Or.inl rfl) =>
    rcases dropLine_spec rest with ⟨body, hbody, he⟩ | ⟨hbody, _⟩
    · refine Or.inl ⟨';' :: (body ++ [('\n' : CodePoint)]), dropLine rest, .line hbody .nil,
        by simp, ?_⟩
      rw [List.cons_append, List.append_assoc, List.singleton_append, ← he]
    · exact Or.inr (Or.inl (.comment .nil hbody))
  | _ :: rest, Or.inr (Or.inr ⟨rfl, hrest⟩) =>
    obtain ⟨body, rfl⟩ := List.head?_eq_some_iff.mp hrest
    by_cases hclosed : ∃ b r, body = b ++ r ∧ BlockRest 0 b
    · obtain ⟨b, r, rfl, hb⟩ := hclosed
      refine Or.inl ⟨'#' :: '|' :: (b ++ []), r, .block hb .nil, by simp, by simp⟩
    · exact Or.inr (Or.inr ⟨body, rfl, fun b r he hb => hclosed ⟨b, r, he, hb⟩⟩)

/-- Every text is a gap in front of a text that begins with none, or a gap that ends a source, or a
gap in front of a block comment that is never closed. -/
theorem exists_gap_split (t : Text) :
    (∃ g c rest, Gap g ∧ ¬StartsGap (c :: rest) ∧ t = g ++ c :: rest) ∨ FinalGap t ∨
      ∃ g rest, Gap g ∧ OpensBlock rest ∧ t = g ++ rest := by
  induction hn : t.length using Nat.strongRecOn generalizing t with
  | ind n ih =>
    by_cases hstart : StartsGap t
    · rcases hstart.cases with ⟨g, r, hg, hne, rfl⟩ | hfinal | hopen
      · have hlt : r.length < n := by
          have hpos := List.length_pos_iff.mpr hne
          rw [List.length_append] at hn
          omega
        rcases ih r.length hlt r rfl with ⟨g', c, rest, hg', hns, rfl⟩ | hfinal | ⟨g', rest, hg', ho, rfl⟩
        · exact Or.inl ⟨g ++ g', c, rest, hg.append hg', hns, by rw [List.append_assoc]⟩
        · exact Or.inr (Or.inl (hfinal.prepend hg))
        · exact Or.inr (Or.inr ⟨g ++ g', rest, hg.append hg', ho, by rw [List.append_assoc]⟩)
      · exact Or.inr (Or.inl hfinal)
      · exact Or.inr (Or.inr ⟨[], t, .nil, hopen, rfl⟩)
    · cases t with
      | nil => exact Or.inr (Or.inl (.gap .nil))
      | cons c rest => exact Or.inl ⟨[], c, rest, .nil, hstart, rfl⟩

end Token

end Lisplet
