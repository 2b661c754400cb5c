import Lisplet.Proofs.WrittenForm

/-!
# Reading one source after another

A line feed between two sources keeps them apart. A token of the first one stands where it stood, because a
line feed ends every word and is part of no name of a character; only the word `#\` at the very end would
take the line feed in. A comment that runs to the end of the first source ends with the line feed. And the
reader looks at its open frames and never at the forms that are complete, so behind a source that is read
without a failure it does what it does at the start.
-/

namespace Lisplet

open Token

namespace Token

/-! ### Layouts -/

theorem newline_not_mem_nameTexts : ∀ name ∈ nameTexts, newline ∉ name := by decide

/-- A line feed ends a word where the end of the source did. -/
theorem EndsWord.append_newline {more : Text} (h : EndsWord more) (t : Text) :
    EndsWord (more ++ newline :: t) := by
  cases more with
  | nil => exact (closes_newline t).endsWord
  | cons c more => exact h

/-- With a line feed and more text behind the source a token stands as before, unless it is a hash and a
backslash at the end. -/
theorem Stands.append_newline {token : Token} {more : Text} (h : Stands token more)
    (hend : more = [] → token.lexeme ≠ text "#\\") (t : Text) :
    Stands token (more ++ newline :: t) := by
  cases h with
  | quote hm => exact .quote hm
  | unquote hne =>
    refine .unquote ?_
    cases more with
    | nil => simp [newline]
    | cons c more => exact hne
  | splice => exact .splice
  | openParen => exact .openParen
  | closeParen => exact .closeParen
  | string hs => exact .string hs
  | named hname => exact .named hname
  | single hname =>
    -- A name that reached beyond the old end would have the line feed in it.
    refine .single fun name hmem hp => ?_
    rw [← List.cons_append] at hp
    rcases List.prefix_or_prefix_of_prefix hp (List.prefix_append _ _) with hshort | ⟨tail, rfl⟩
    · exact hname name hmem hshort
    · cases tail with
      | nil => exact hname _ hmem (by simp)
      | cons d tail =>
        obtain ⟨rfl, _⟩ := List.cons_prefix_cons.mp ((List.prefix_append_right_inj _).mp hp)
        exact newline_not_mem_nameTexts _ hmem (by simp)
  | boolean hw hmore => exact .boolean hw (hmore.append_newline t)
  | radix hw hmore => exact .radix hw (hmore.append_newline t)
  | symbol hw hb hr hblock hliteral hmore =>
    refine .symbol hw hb hr hblock (fun hp => ?_) (hmore.append_newline t)
    obtain ⟨hlength, hnil⟩ := hliteral hp
    exact absurd (hp.eq_of_length hlength.symm).symm (hend hnil)

/-- The layout of a source stays the beginning of the layout when a line feed and more text follow. -/
theorem Spells.append_newline {tokens : List Token} {source rest : Text} (h : Spells tokens source rest)
    (hend : ¬text "#\\" <:+ source) (t : Text) :
    Spells tokens (source ++ newline :: t) (rest ++ newline :: t) := by
  induction h with
  | nil => exact .nil
  | @cons g more rest token tokens hg hstands _ ih =>
    rw [List.append_assoc, List.append_assoc]
    refine .cons hg (hstands.append_newline (fun hnil hlexeme => hend ?_) t) (ih fun hs => hend ?_)
    · rw [hnil, hlexeme, List.append_nil]
      exact List.suffix_append _ _
    · exact hs.trans ((List.suffix_append _ _).trans (List.suffix_append _ _))

/-- A line feed ends a comment at the end of a source. -/
theorem FinalGap.append_newline {g : Text} (h : FinalGap g) : Gap (g ++ [newline]) := by
  cases h with
  | gap hg => exact hg.append gap_newline
  | @comment g body hg hbody =>
    have hline : Gap (';' :: (body ++ newline :: [])) := .line hbody .nil
    rw [List.append_assoc]
    exact hg.append hline

/-- A gap in front changes nothing about how a layout ends. -/
theorem Ends.prepend {g rest : Text} {failure : Option ScanError} (hg : Gap g) (h : Ends rest failure) :
    Ends (g ++ rest) failure := by
  cases h with
  | finished h => exact .finished (h.prepend hg)
  | comment h ho =>
    rw [← List.append_assoc]
    exact .comment (hg.append h) ho
  | string h ho =>
    rw [← List.append_assoc]
    exact .string (hg.append h) ho

/-- A gap in front of a source changes neither its tokens nor how it ends. -/
theorem exists_spells_prepend {tokens : List Token} {g source rest : Text} {failure : Option ScanError}
    (hg : Gap g) (h : Spells tokens source rest) (hend : Ends rest failure) :
    ∃ rest', Spells tokens (g ++ source) rest' ∧ Ends rest' failure := by
  cases h with
  | nil => exact ⟨_, .nil, hend.prepend hg⟩
  | cons hg' hstands h =>
    exact ⟨rest, (Spells.cons hg' hstands h).prepend hg (List.cons_ne_nil _ _), hend⟩

/-- A source that scans to its end, a line feed and another source are taken apart one after the other. -/
theorem scan_append_newline {source : Text} (h : (scan source).failure = none)
    (hend : ¬text "#\\" <:+ source) (t : Text) :
    scan (source ++ newline :: t) = ⟨(scan source).tokens ++ (scan t).tokens, (scan t).failure⟩ := by
  obtain ⟨rest, hspells, hrest⟩ := exists_spells_scan source
  rw [h] at hrest
  cases hrest with
  | finished hfinal =>
    obtain ⟨rest', hspells', hrest'⟩ := exists_spells_scan t
    obtain ⟨last, hlast, hends⟩ :=
      exists_spells_prepend hfinal.append_newline hspells' hrest'
    rw [List.append_assoc, List.singleton_append] at hlast
    exact scan_eq_iff.mpr ⟨last, (hspells.append_newline hend t).append hlast, hends⟩

end Token

namespace Reader

/-! ### The complete forms are not looked at -/

/-- The reader with other forms complete before its own. -/
def behind (earlier : List Datum) (r : Reader) : Reader := ⟨r.forms ++ earlier, r.frames⟩

theorem complete_behind (earlier forms : List Datum) (frames : List Frame) (d : Datum) :
    complete (forms ++ earlier) frames d = (complete forms frames d).behind earlier := by
  fun_induction complete forms frames d with
  | case5 mark symbol outer d ih => exact ih
  | _ => rfl

theorem open?_behind (limit : Nat) (earlier : List Datum) (r : Reader) (frame : Frame) :
    (r.behind earlier).open? limit frame = (r.open? limit frame).map (behind earlier) := by
  have hdepth : (r.behind earlier).depth = r.depth := rfl
  unfold open?
  rw [hdepth]
  split <;> rfl

theorem quote?_behind (limit : Nat) (earlier : List Datum) (r : Reader) (mark : Text) :
    (r.behind earlier).quote? limit mark = (r.quote? limit mark).map (behind earlier) := by
  unfold quote?
  split
  · exact open?_behind limit earlier r _
  · rfl

theorem close?_behind (earlier : List Datum) (r : Reader) :
    (r.behind earlier).close? = r.close?.map (behind earlier) := by
  obtain ⟨forms, frames⟩ := r
  unfold close? behind
  cases frames with
  | nil => rfl
  | cons frame outer =>
    cases frame with
    | items done => exact congrArg Except.ok (complete_behind earlier forms outer _)
    | beforeClose done last =>
      dsimp only
      split
      · rfl
      · exact congrArg Except.ok (complete_behind earlier forms outer _)
    | _ => rfl

theorem dot?_behind (earlier : List Datum) (r : Reader) :
    (r.behind earlier).dot? = r.dot?.map (behind earlier) := by
  obtain ⟨forms, frames⟩ := r
  unfold dot? behind
  cases frames with
  | nil => rfl
  | cons frame outer =>
    cases frame with
    | items done => cases done <;> rfl
    | _ => rfl

/-- A token is taken in alike whatever forms are complete. -/
theorem step_behind (limit : Nat) (earlier : List Datum) (r : Reader) (token : Token) :
    (r.behind earlier).step limit token = (r.step limit token).map (behind earlier) := by
  have hclose : (r.behind earlier).mustClose = r.mustClose := rfl
  unfold step
  rw [hclose]
  split
  · exact close?_behind earlier r
  split
  · rfl
  split
  · exact open?_behind limit earlier r _
  · exact quote?_behind limit earlier r _
  · exact quote?_behind limit earlier r _
  split
  · exact dot?_behind earlier r
  · cases atom? token with
    | error e => rfl
    | ok d => exact congrArg Except.ok (complete_behind earlier r.forms r.frames d)

/-- A row of tokens is read alike whatever forms are complete: these come first. -/
theorem run_behind (limit : Nat) (scanFailure : Option ScanError) (earlier : List Datum)
    (tokens : List Token) (r : Reader) : run limit scanFailure tokens (r.behind earlier) =
      ⟨earlier.reverse ++ (run limit scanFailure tokens r).forms,
        (run limit scanFailure tokens r).failure⟩ := by
  induction tokens generalizing r with
  | nil =>
    have hforms : (r.behind earlier).forms.reverse = earlier.reverse ++ r.forms.reverse :=
      List.reverse_append
    rw [run, run, hforms]
    rfl
  | cons token tokens ih =>
    have hstep := step_behind limit earlier r token
    cases hr : r.step limit token with
    | ok next =>
      rw [hr] at hstep
      rw [run_cons_ok hstep, run_cons_ok hr, ih]
    | error e =>
      rw [hr] at hstep
      rw [run_cons_error hstep, run_cons_error hr]
      exact congrArg (Reading.mk · (some e)) List.reverse_append

/-- Only what scans to its end is read without a failure. -/
theorem scanFailure_of_run {limit : Nat} {scanFailure : Option ScanError} {tokens : List Token}
    {r : Reader} (h : (run limit scanFailure tokens r).failure = none) : scanFailure = none := by
  induction tokens generalizing r with
  | nil =>
    rw [run] at h
    cases scanFailure with
    | none => rfl
    | some e => simp at h
  | cons token tokens ih =>
    cases hr : r.step limit token with
    | ok next =>
      rw [run_cons_ok hr] at h
      exact ih h
    | error e =>
      rw [run_cons_error hr] at h
      cases h

/-- Behind tokens that are read without a failure no frame is open. -/
theorem run_append {limit : Nat} {tokens : List Token} {r : Reader} {ds : List Datum}
    (h : run limit none tokens r = ⟨ds, none⟩) (scanFailure : Option ScanError) (more : List Token) :
    run limit scanFailure (tokens ++ more) r = run limit scanFailure more ⟨ds.reverse, []⟩ := by
  induction tokens generalizing r with
  | nil =>
    obtain ⟨forms, frames⟩ := r
    obtain ⟨rfl, hmissing⟩ := Reading.mk.inj h
    rw [List.reverse_reverse, List.nil_append]
    cases frames with
    | nil => rfl
    | cons frame outer => cases frame <;> exact nomatch hmissing
  | cons token tokens ih =>
    cases hr : r.step limit token with
    | ok next =>
      rw [run_cons_ok hr] at h
      rw [List.cons_append, run_cons_ok hr]
      exact ih h
    | error e =>
      rw [run_cons_error hr] at h
      exact nomatch h

end Reader

/-- Reading distributes over concatenation. Behind a source that is read without a failure, and does not
end in a hash and a backslash, a line feed and another source are read as that source is alone: the forms of
the first one come first, and the reading ends as that of the other does. -/
theorem readAll_append_newline {limit : Nat} {source : Text} {ds : List Datum}
    (h : readAll limit source = ⟨ds, none⟩) (hend : ¬text "#\\" <:+ source) (t : Text) :
    readAll limit (source ++ newline :: t) =
      ⟨ds ++ (readAll limit t).forms, (readAll limit t).failure⟩ := by
  have hscan : (scan source).failure = none := Reader.scanFailure_of_run (congrArg Reading.failure h)
  rw [readAll, hscan] at h
  have hstart : (⟨ds.reverse, []⟩ : Reader) = Reader.start.behind ds.reverse := rfl
  rw [readAll, scan_append_newline hscan hend, Reader.run_append h, hstart, Reader.run_behind,
    List.reverse_reverse]
  rfl

/-- A comment at the end of a source does not reach into the next one. -/
theorem readAll_append_newline_comment :
    readAll nestingLimit (text "'a;(") = ⟨[.prefixed (text "quote") (.sym (text "a"))], none⟩ ∧
      ¬text "#\\" <:+ text "'a;(" ∧
      readAll nestingLimit (text "'a;(" ++ newline :: text "b)") =
        ⟨[.prefixed (text "quote") (.sym (text "a")), .sym (text "b")],
          some (.malformed .unexpectedClose)⟩ := by
  have hread : readAll nestingLimit (text "'a;(") =
      ⟨[.prefixed (text "quote") (.sym (text "a"))], none⟩ := by rfl
  have hend : ¬text "#\\" <:+ text "'a;(" := by decide
  exact ⟨hread, hend, readAll_append_newline hread hend (text "b)")⟩

/-- A hash and a backslash at the end would take the line feed in. -/
example : readAll nestingLimit (text "#\\") = ⟨[.sym (text "#\\")], none⟩ ∧
    readAll nestingLimit (text "#\\" ++ newline :: []) = ⟨[.char newline], none⟩ := ⟨rfl, rfl⟩

end Lisplet
