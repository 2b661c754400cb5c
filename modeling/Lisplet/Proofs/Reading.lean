import Lisplet.Proofs.Grammar
import Lisplet.Proofs.Scanning

/-!
# Reading is exact

The reader accepts the rows of data and nothing else. In one direction a derivation drives it from any
state that may take a datum to the state with that datum taken, unless a limit of the host stops it. In
the other direction `Pending` describes the tokens behind the open frames, so that the tokens taken in
are always a row of complete data and a beginning of a datum.
-/

namespace Lisplet

open Token

namespace Reader

/-! ### Single steps -/

theorem step_close {limit : Nat} {r : Reader} {token : Token} (hk : token.kind = .closeParen) :
    r.step limit token = r.close? := by
  rw [step, if_pos hk]

theorem step_open (limit : Nat) {r : Reader} {token : Token} (hm : r.mustClose = false)
    (hk : token.kind = .openParen) : r.step limit token = r.open? limit (.items []) := by
  simp [step, hk, hm]

theorem step_quotation (limit : Nat) {r : Reader} {token : Token} {symbol : Text}
    (hm : r.mustClose = false) (h : token.IsQuotation symbol) :
    r.step limit token = r.open? limit (.quoted token.lexeme symbol) := by
  have hlookup : quotations.lookup token.lexeme = some symbol :=
    (lookup_eq_some_iff_mem (by decide)).mpr h.2
  rcases h.1 with hk | hk <;> simp [step, hk, hm, quote?, hlookup]

theorem step_dot (limit : Nat) {r : Reader} {token : Token} (hm : r.mustClose = false)
    (h : token.IsDot) : r.step limit token = r.dot? := by
  simp [step, h.1, h.2, hm]

theorem step_atom (limit : Nat) {r : Reader} {token : Token} (hm : r.mustClose = false)
    (hk : token.weight = 0 ∧ token.kind ≠ .closeParen) (hdot : ¬token.IsDot) :
    r.step limit token = (atom? token).map (complete r.forms r.frames) := by
  have hnot : ¬(token.kind = .symbol ∧ token.lexeme = text ".") := hdot
  obtain ⟨kind, lexeme⟩ := token
  cases kind <;> simp_all [step, weight]

/-- A frame adds its weight to the depth. -/
theorem depth_cons (forms : List Datum) (frame : Frame) (r : Reader) :
    depth ⟨forms, frame :: r.frames⟩ = r.depth + frame.weight := by
  have hfold : ∀ (fs : List Frame) (n : Nat),
      fs.foldl (fun n f => n + f.weight) n = n + fs.foldl (fun n f => n + f.weight) 0 := by
    intro fs
    induction fs with
    | nil => simp
    | cons f fs ih =>
      intro n
      rw [List.foldl_cons, List.foldl_cons, ih, ih (0 + f.weight)]
      omega
  simp only [depth, List.foldl_cons, hfold r.frames (0 + frame.weight)]
  omega

/-! ### Data are accepted -/

/-- Why the reader may stop within data: a decimal integer has too many digits, or the data are nested
too deeply. -/
def Overruns (limit depth : Nat) (ts : List Token) : ReadFailure → Prop
  | .numeralTooLong => ∃ token ∈ ts, token.IsTooLong
  | .nestedTooDeeply => limit ≤ depth
  | _ => False

theorem Overruns.mono {limit depth depth' : Nat} {ts ts' : List Token} {e : ReadFailure}
    (h : Overruns limit depth ts e) (hdepth : depth ≤ depth') (hts : ts ⊆ ts') :
    Overruns limit depth' ts' e := by
  cases e with
  | numeralTooLong =>
    obtain ⟨token, hmem, hlong⟩ := h
    exact ⟨token, hts hmem, hlong⟩
  | nestedTooDeeply => exact Nat.le_trans h hdepth
  | malformed => exact h
  | fault => exact h

theorem run_cons_ok {limit : Nat} {scanFailure : Option ScanError} {token : Token}
    {more : List Token} {r next : Reader} (h : r.step limit token = .ok next) :
    run limit scanFailure (token :: more) r = run limit scanFailure more next := by
  rw [run, h]

theorem run_cons_error {limit : Nat} {scanFailure : Option ScanError} {token : Token}
    {more : List Token} {r : Reader} {e : ReadFailure} (h : r.step limit token = .error e) :
    run limit scanFailure (token :: more) r = ⟨r.forms.reverse, some e⟩ := by
  rw [run, h]

/-- Opening a frame succeeds unless it overruns the bound on nesting. -/
theorem open?_cases (limit : Nat) (r : Reader) (frame : Frame) :
    r.open? limit frame = .ok ⟨r.forms, frame :: r.frames⟩ ∨
      limit ≤ r.depth + frame.weight ∧ r.open? limit frame = .error .nestedTooDeeply := by
  by_cases h : r.depth + frame.weight < limit
  · exact Or.inl (by rw [open?, if_pos h])
  · exact Or.inr ⟨Nat.le_of_not_lt h, by rw [open?, if_neg h]⟩

/-- What is taken in behind an opening token is taken in with it, and what overruns a limit there does. -/
theorem run_of_open {limit : Nat} {scanFailure : Option ScanError} {token : Token} {ts more : List Token}
    {r : Reader} {frame : Frame} {n : Nat} {reading : Reading} (hstep : r.step limit token = r.open? limit frame)
    (h : run limit scanFailure more ⟨r.forms, frame :: r.frames⟩ = reading ∨
      ∃ e, Overruns limit (r.depth + frame.weight + n) ts e ∧
        run limit scanFailure more ⟨r.forms, frame :: r.frames⟩ = ⟨r.forms.reverse, some e⟩) :
    run limit scanFailure (token :: more) r = reading ∨
      ∃ e, Overruns limit (r.depth + (n + frame.weight)) (token :: ts) e ∧
        run limit scanFailure (token :: more) r = ⟨r.forms.reverse, some e⟩ := by
  rcases open?_cases limit r frame with ho | ⟨hle, ho⟩
  · rw [ho] at hstep
    rw [run_cons_ok hstep]
    refine h.imp_right fun ⟨e, he, hrun⟩ => ⟨e, he.mono (by omega) (List.subset_cons_self _ _), hrun⟩
  · rw [ho] at hstep
    exact Or.inr ⟨.nestedTooDeeply, Nat.le_trans hle (by omega), run_cons_error hstep⟩

mutual

/-- A datum is taken in by every reader that does not wait for a closing parenthesis, unless it overruns
a limit. -/
theorem run_of_denotes {ts : List Token} {d : Datum} {n : Nat} (limit : Nat)
    (scanFailure : Option ScanError) (more : List Token) {r : Reader} (hm : r.mustClose = false) :
    Denotes ts d n →
      run limit scanFailure (ts ++ more) r =
          run limit scanFailure more (complete r.forms r.frames d) ∨
        ∃ e, Overruns limit (r.depth + n) ts e ∧
          run limit scanFailure (ts ++ more) r = ⟨r.forms.reverse, some e⟩
  | @Denotes.atom token _ h => by
    have hstep := step_atom limit hm h.kind.1 h.kind.2
    by_cases hlong : token.IsTooLong
    · rw [atom?_of_isTooLong hlong] at hstep
      exact Or.inr ⟨.numeralTooLong, ⟨token, by simp, hlong⟩, run_cons_error hstep⟩
    · rw [atom?_of_denotesAtom h hlong] at hstep
      exact Or.inl (run_cons_ok hstep)
  | @Denotes.quoted token symbol _ _ n hq h => by
    refine run_of_open (step_quotation limit hm hq) ?_
    rw [← depth_cons r.forms (.quoted token.lexeme symbol) r]
    exact run_of_denotes limit scanFailure more rfl h
  | @Denotes.list opening closing ts ds n hopen hclose h => by
    rw [List.cons_append, List.append_assoc]
    refine run_of_open (step_open limit hm hopen) ?_
    rw [← depth_cons r.forms (.items []) r]
    rcases run_of_denotesAll limit scanFailure ([closing] ++ more) r.forms r.frames [] h with
      hrun | ⟨e, he, hrun⟩
    · rw [hrun, List.append_nil]
      refine Or.inl (run_cons_ok ?_)
      rw [step_close hclose, close?]
      simp only [List.reverse_reverse]
    · exact Or.inr ⟨e, he.mono (Nat.le_refl _) (List.subset_append_left _ _), hrun⟩
  | @Denotes.dotted opening dot closing ts us ds d n m hopen hdot hclose h hne hd => by
    rw [List.cons_append, List.append_assoc, List.cons_append, List.append_assoc]
    refine run_of_open (step_open limit hm hopen) ?_
    rw [← depth_cons r.forms (.items []) r]
    rcases run_of_denotesAll limit scanFailure (dot :: (us ++ ([closing] ++ more))) r.forms r.frames
      [] h with hrun | ⟨e, he, hrun⟩
    · rw [hrun, List.append_nil]
      have hdots : step limit ⟨r.forms, .items ds.reverse :: r.frames⟩ dot =
          .ok ⟨r.forms, .afterDot ds.reverse :: r.frames⟩ := by
        rw [step_dot limit rfl hdot]
        obtain ⟨d', ds', hds⟩ := List.exists_cons_of_ne_nil (List.reverse_ne_nil_iff.mpr hne)
        rw [hds]
        rfl
      rw [run_cons_ok hdots]
      -- The frame behind the dot weighs as much as that of the items, so the tail may be nested as deeply.
      rcases run_of_denotes limit scanFailure ([closing] ++ more)
        (r := ⟨r.forms, .afterDot ds.reverse :: r.frames⟩) rfl hd with hrun' | ⟨e, he, hrun'⟩
      · rw [hrun']
        refine Or.inl (run_cons_ok ?_)
        have hempty : ds.reverse.isEmpty = false := by simpa using hne
        rw [step_close hclose, complete, close?]
        simp only [hempty, Bool.false_and, Bool.false_eq_true, if_false, List.reverse_reverse]
      · refine Or.inr ⟨e, he.mono ?_ fun t ht => by simp [ht], hrun'⟩
        simp only [depth_cons, Frame.weight]
        omega
    · exact Or.inr ⟨e, he.mono (by omega) (List.subset_append_left _ _), hrun⟩

/-- A row of data is taken in by an open list, unless one overruns a limit. -/
theorem run_of_denotesAll {ts : List Token} {ds : List Datum} {n : Nat} (limit : Nat)
    (scanFailure : Option ScanError) (more : List Token) (forms : List Datum) (outer : List Frame)
    (done : List Datum) :
    DenotesAll ts ds n →
      run limit scanFailure (ts ++ more) ⟨forms, .items done :: outer⟩ =
          run limit scanFailure more ⟨forms, .items (ds.reverse ++ done) :: outer⟩ ∨
        ∃ e, Overruns limit (depth ⟨forms, .items done :: outer⟩ + n) ts e ∧
          run limit scanFailure (ts ++ more) ⟨forms, .items done :: outer⟩ =
            ⟨forms.reverse, some e⟩
  | .nil => Or.inl rfl
  | @DenotesAll.cons ts us d ds n m hd h => by
    rw [List.append_assoc]
    rcases run_of_denotes limit scanFailure (us ++ more) (r := ⟨forms, .items done :: outer⟩) rfl hd
      with hrun | ⟨e, he, hrun⟩
    · rw [hrun, complete]
      rcases run_of_denotesAll limit scanFailure more forms outer (d :: done) h with
        hrun' | ⟨e, he, hrun'⟩
      · rw [hrun', List.reverse_cons, List.append_assoc]
        exact Or.inl rfl
      · refine Or.inr ⟨e, he.mono ?_ (List.subset_append_right _ _), hrun'⟩
        rw [depth_cons forms _ ⟨forms, outer⟩, depth_cons forms _ ⟨forms, outer⟩]
        simp only [Frame.weight]
        omega
    · refine Or.inr ⟨e, he.mono ?_ (List.subset_append_left _ _), hrun⟩
      omega

end

/-- Between forms a row of data is taken in, unless one overruns a limit. -/
theorem run_of_denotesAll_top {ts : List Token} {ds : List Datum} {n : Nat} (limit : Nat)
    (scanFailure : Option ScanError) (more : List Token) (forms : List Datum) (h : DenotesAll ts ds n) :
    run limit scanFailure (ts ++ more) ⟨forms, []⟩ =
        run limit scanFailure more ⟨ds.reverse ++ forms, []⟩ ∨
      ∃ e, Overruns limit n ts e ∧
        (run limit scanFailure (ts ++ more) ⟨forms, []⟩).failure = some e := by
  induction ds generalizing ts n forms with
  | nil =>
    cases h
    exact Or.inl rfl
  | cons d ds ih =>
    cases h with
    | @cons ts us _ _ n m hd h =>
      rw [List.append_assoc]
      rcases run_of_denotes limit scanFailure (us ++ more) (r := ⟨forms, []⟩) rfl hd with
        hrun | ⟨e, he, hrun⟩
      · rw [hrun, complete]
        rcases ih (d :: forms) h with hrun' | ⟨e, he, hrun'⟩
        · rw [hrun', List.reverse_cons, List.append_assoc]
          exact Or.inl rfl
        · exact Or.inr ⟨e, he.mono (Nat.le_max_right n m) (List.subset_append_right _ _), hrun'⟩
      · refine Or.inr ⟨e, he.mono ?_ (List.subset_append_left _ _), by rw [hrun]⟩
        exact Nat.le_trans (Nat.le_of_eq (Nat.zero_add n)) (Nat.le_max_left n m)

/-! ### Only data are accepted -/

/-- Tokens that begin a datum and do not complete it, with the frames that they leave open. -/
inductive Pending : List Token → List Frame → Prop
  | nothing : Pending [] []
  | items {before ts : List Token} {outer : List Frame} {opening : Token} {done : List Datum} {n : Nat} :
      Pending before outer → mustClose ⟨[], outer⟩ = false → opening.kind = .openParen →
      DenotesAll ts done.reverse n → Pending (before ++ opening :: ts) (.items done :: outer)
  | afterDot {before : List Token} {outer : List Frame} {dot : Token} {done : List Datum} :
      Pending before (.items done :: outer) → done ≠ [] → IsDot dot →
      Pending (before ++ [dot]) (.afterDot done :: outer)
  | beforeClose {before ts : List Token} {outer : List Frame} {done : List Datum} {d : Datum} {n : Nat} :
      Pending before (.afterDot done :: outer) → Denotes ts d n →
      Pending (before ++ ts) (.beforeClose done d :: outer)
  | quoted {before : List Token} {outer : List Frame} {token : Token} {symbol : Text} :
      Pending before outer → mustClose ⟨[], outer⟩ = false → IsQuotation token symbol →
      Pending (before ++ [token]) (.quoted token.lexeme symbol :: outer)

/-- The state after some tokens: the forms are the values of a row of data, and the other tokens are
behind the open frames. -/
def Follows (taken : List Token) (r : Reader) : Prop :=
  ∃ done rest n, taken = done ++ rest ∧ DenotesAll done r.forms.reverse n ∧ Pending rest r.frames

/-- Completing a datum behind open frames completes a form, or leaves frames open. -/
theorem Pending.complete {before : List Token} {frames : List Frame} (h : Pending before frames)
    (hm : mustClose ⟨[], frames⟩ = false) {ts : List Token} {d : Datum} {n : Nat} (hd : Denotes ts d n)
    (forms : List Datum) :
    (∃ d' m, Denotes (before ++ ts) d' m ∧ Reader.complete forms frames d = ⟨d' :: forms, []⟩) ∨
      ∃ frames', Pending (before ++ ts) frames' ∧ Reader.complete forms frames d = ⟨forms, frames'⟩ := by
  induction h generalizing ts d n with
  | nothing => exact Or.inl ⟨d, n, hd, rfl⟩
  | @items before us outer opening done m hbefore houter hopen hds _ =>
    refine Or.inr ⟨.items (d :: done) :: outer, ?_, rfl⟩
    rw [List.append_assoc, List.cons_append]
    exact .items hbefore houter hopen (by simpa using hds.concat hd)
  | afterDot hbefore hne hdot _ => exact Or.inr ⟨_, .beforeClose (.afterDot hbefore hne hdot) hd, rfl⟩
  | beforeClose => simp [mustClose] at hm
  | quoted hbefore houter hq ih =>
    rw [List.append_assoc, List.singleton_append]
    exact ih houter (.quoted hq hd)

/-- Taking a datum in keeps the description of the state. -/
theorem Follows.complete {taken ts : List Token} {r : Reader} {d : Datum} {n : Nat}
    (h : Follows taken r) (hm : r.mustClose = false) (hd : Denotes ts d n) :
    Follows (taken ++ ts) (Reader.complete r.forms r.frames d) := by
  obtain ⟨done, rest, m, rfl, hdone, hpending⟩ := h
  rcases hpending.complete hm hd r.forms with ⟨d', k, hd', he⟩ | ⟨frames', hpending', he⟩
  · rw [he]
    refine ⟨done ++ (rest ++ ts), [], max m k, by simp, ?_, .nothing⟩
    simpa using hdone.concat hd'
  · rw [he]
    exact ⟨done, rest ++ ts, m, by simp, hdone, hpending'⟩

/-- Tokens behind open frames are some tokens. -/
theorem Pending.ne_nil {before : List Token} {frames : List Frame} (h : Pending before frames)
    (hne : frames ≠ []) : before ≠ [] := by
  cases h with
  | nothing => exact absurd rfl hne
  | items => simp
  | afterDot => simp
  | beforeClose _ hd =>
    intro he
    exact hd.ne_nil (List.append_eq_nil_iff.mp he).2
  | quoted => simp

/-- What a step of the reader may fail with: a fault of the grammar, a numeral that has too many digits,
or a token that opens more than the bound on nesting admits. -/
def StepFailure (limit : Nat) (r : Reader) (token : Token) : ReadFailure → Prop
  | .malformed (.scan _) | .malformed (.unknownToken _) | .fault _ => False
  | .malformed _ => True
  | .numeralTooLong => token.IsTooLong
  | .nestedTooDeeply => limit ≤ r.depth + token.weight

/-- A token closes or opens a list, is a quotation mark or a dot, or is a datum of its own. -/
theorem sort_of_stands {token : Token} {more : Text} (h : Stands token more) :
    token.kind = .closeParen ∨ token.kind = .openParen ∨ (∃ symbol, token.IsQuotation symbol) ∨
      token.IsDot ∨ (token.weight = 0 ∧ token.kind ≠ .closeParen) ∧ ¬token.IsDot := by
  by_cases hdot : token.IsDot
  · exact Or.inr (Or.inr (Or.inr (Or.inl hdot)))
  · cases h with
    | quote hmark =>
      refine Or.inr (Or.inr (Or.inl ?_))
      rcases hmark with rfl | rfl
      · exact ⟨text "quote", Or.inl rfl, by simp [quotations]; decide⟩
      · exact ⟨text "quasiquote", Or.inl rfl, by simp [quotations]; decide⟩
    | unquote => exact Or.inr (Or.inr (Or.inl ⟨text "unquote", Or.inr rfl, by simp [quotations]; decide⟩))
    | splice =>
      exact Or.inr (Or.inr (Or.inl ⟨text "unquote-splicing", Or.inr rfl, by simp [quotations]; decide⟩))
    | openParen => exact Or.inr (Or.inl rfl)
    | closeParen => exact Or.inl rfl
    | _ => exact Or.inr (Or.inr (Or.inr (Or.inr ⟨by simp [weight], hdot⟩)))

/-- A closing parenthesis completes the innermost list or is a fault of the grammar. -/
theorem close?_cases {limit : Nat} {taken : List Token} {r : Reader} {token : Token}
    (h : Follows taken r) (hk : token.kind = .closeParen) :
    (∃ next, r.close? = .ok next ∧ Follows (taken ++ [token]) next) ∨
      ∃ e, r.close? = .error e ∧ StepFailure limit r token e := by
  obtain ⟨forms, frames⟩ := r
  obtain ⟨done, rest, n, rfl, hdone, hpending⟩ := h
  cases hpending with
  | nothing => exact Or.inr ⟨_, rfl, trivial⟩
  | afterDot => exact Or.inr ⟨_, rfl, trivial⟩
  | quoted => exact Or.inr ⟨_, rfl, trivial⟩
  | @items before ts outer opening items m hbefore houter hopen hds =>
    have hout : Follows (done ++ before) ⟨forms, outer⟩ := ⟨done, before, n, rfl, hdone, hbefore⟩
    have hlist := hout.complete houter (.list hopen hk hds)
    simp only [List.append_assoc, List.cons_append] at hlist ⊢
    exact Or.inl ⟨_, rfl, hlist⟩
  | @beforeClose _ _ outer items _ _ hafter hd =>
    cases hafter with
    | afterDot hitems hne hdot =>
      cases hitems with
      | @items before ts _ opening _ m hbefore houter hopen hds =>
        have hout : Follows (done ++ before) ⟨forms, outer⟩ := ⟨done, before, n, rfl, hdone, hbefore⟩
        have hlist := hout.complete houter
          (.dotted hopen hdot hk hds (List.reverse_ne_nil_iff.mpr hne) hd)
        have hempty : items.isEmpty = false := by simpa using hne
        simp only [List.append_assoc, List.cons_append, List.nil_append] at hlist ⊢
        refine Or.inl ⟨_, ?_, hlist⟩
        simp only [close?, hempty, Bool.false_and, Bool.false_eq_true, if_false]

/-- A dot stands behind the first items of a list or is a fault of the grammar. -/
theorem dot?_cases {limit : Nat} {taken : List Token} {r : Reader} {token : Token}
    (h : Follows taken r) (hdot : token.IsDot) :
    (∃ next, r.dot? = .ok next ∧ Follows (taken ++ [token]) next) ∨
      ∃ e, r.dot? = .error e ∧ StepFailure limit r token e := by
  obtain ⟨forms, frames⟩ := r
  obtain ⟨done, rest, n, rfl, hdone, hpending⟩ := h
  have hwhole := hpending
  cases hpending with
  | @items before ts outer opening items m hbefore houter hopen hds =>
    cases items with
    | nil => exact Or.inr ⟨_, rfl, trivial⟩
    | cons d items =>
      refine Or.inl ⟨_, rfl, done, (before ++ opening :: ts) ++ [token], n, by simp, hdone, ?_⟩
      exact .afterDot hwhole (List.cons_ne_nil _ _) hdot
  | _ => exact Or.inr ⟨_, rfl, trivial⟩

/-- A frame is opened by a token of its weight unless that overruns the bound on nesting. -/
theorem open?_cases_of_follows {limit : Nat} {r : Reader} {token : Token} {frame : Frame}
    (hweight : frame.weight = token.weight) {taken : List Token}
    (hnext : Follows (taken ++ [token]) ⟨r.forms, frame :: r.frames⟩) :
    (∃ next, r.open? limit frame = .ok next ∧ Follows (taken ++ [token]) next) ∨
      ∃ e, r.open? limit frame = .error e ∧ StepFailure limit r token e := by
  rcases open?_cases limit r frame with ho | ⟨hle, ho⟩
  · exact Or.inl ⟨_, ho, hnext⟩
  · rw [hweight] at hle
    exact Or.inr ⟨_, ho, hle⟩

/-- A token of a source keeps the description of the state or fails for one of few reasons. -/
theorem step_cases (limit : Nat) {taken : List Token} {r : Reader} {token : Token} {more : Text}
    (h : Follows taken r) (ht : Stands token more) :
    (∃ next, r.step limit token = .ok next ∧ Follows (taken ++ [token]) next) ∨
      ∃ e, r.step limit token = .error e ∧ StepFailure limit r token e := by
  by_cases hclose : token.kind = .closeParen
  · rw [step_close hclose]
    exact close?_cases h hclose
  cases hm : r.mustClose with
  | true => exact Or.inr ⟨.malformed .missingCloseAfterTail, by simp [step, hclose, hm], trivial⟩
  | false =>
    have hopened : ∀ frame, (∀ before, Pending before r.frames →
        Pending (before ++ [token]) (frame :: r.frames)) →
        Follows (taken ++ [token]) ⟨r.forms, frame :: r.frames⟩ := by
      intro frame hframe
      obtain ⟨done, rest, n, rfl, hdone, hpending⟩ := h
      exact ⟨done, rest ++ [token], n, by simp, hdone, hframe rest hpending⟩
    rcases sort_of_stands ht with hk | hk | ⟨symbol, hq⟩ | hdot | ⟨hk, hdot⟩
    · exact absurd hk hclose
    · rw [step_open limit hm hk]
      refine open?_cases_of_follows (by simp [weight, Frame.weight, hk]) (hopened _ ?_)
      intro before hbefore
      exact .items hbefore hm hk .nil
    · rw [step_quotation limit hm hq]
      refine open?_cases_of_follows ?_ (hopened _ ?_)
      · rcases hq.1 with hk | hk <;> simp [weight, Frame.weight, hk]
      · intro before hbefore
        exact .quoted hbefore hm hq
    · rw [step_dot limit hm hdot]
      exact dot?_cases h hdot
    · rw [step_atom limit hm hk hdot]
      rcases atom?_of_stands ht hk hdot with ⟨d, ha, hd⟩ | ⟨ha, hlong⟩ | ⟨c, ha⟩
      · rw [ha]
        exact Or.inl ⟨_, rfl, h.complete hm (.atom hd)⟩
      · rw [ha]
        exact Or.inr ⟨_, rfl, hlong⟩
      · rw [ha]
        exact Or.inr ⟨_, rfl, trivial⟩

/-- Why the reading of a source stops, told by the tokens behind the last complete datum: there are none;
the grammar admits no continuation; or a limit of the host is overrun within the datum that they begin. -/
def Stops (limit : Nat) (rest : List Token) : Option ReadFailure → Prop
  | none => rest = []
  | some (.malformed (.scan _)) | some (.malformed (.unknownToken _)) | some (.fault _) => False
  | some (.malformed _) => rest ≠ []
  | some .numeralTooLong => ∃ before token after frames, rest = before ++ token :: after ∧
      Pending before frames ∧ token.IsTooLong
  | some .nestedTooDeeply => ∃ before token after frames, rest = before ++ token :: after ∧
      Pending before frames ∧ limit ≤ depth ⟨[], frames⟩ + token.weight

/-- The forms of a reading are the values of a row of data, and the tokens behind them tell why it
stops. -/
theorem run_of_follows (limit : Nat) {ts taken : List Token} {r : Reader} (h : Follows taken r)
    (hts : ∀ token ∈ ts, ∃ more, Stands token more) :
    ∃ done rest n, taken ++ ts = done ++ rest ∧ DenotesAll done (run limit none ts r).forms n ∧
      Stops limit rest (run limit none ts r).failure := by
  induction ts generalizing taken r with
  | nil =>
    obtain ⟨done, rest, n, rfl, hdone, hpending⟩ := h
    refine ⟨done, rest, n, List.append_nil _, hdone, ?_⟩
    obtain ⟨forms, frames⟩ := r
    have hne := hpending.ne_nil
    cases hpending with
    | nothing => exact rfl
    | _ => exact hne (List.cons_ne_nil _ _)
  | cons token ts ih =>
    obtain ⟨⟨more, hstands⟩, hts⟩ := List.forall_mem_cons.mp hts
    rcases step_cases limit h hstands with ⟨next, hstep, hnext⟩ | ⟨e, hstep, he⟩
    · rw [run_cons_ok hstep]
      simpa using ih hnext hts
    · rw [run_cons_error hstep]
      obtain ⟨done, rest, n, rfl, hdone, hpending⟩ := h
      refine ⟨done, rest ++ token :: ts, n, List.append_assoc _ _ _, hdone, ?_⟩
      cases e with
      | malformed e =>
        cases e with
        | scan => exact he
        | unknownToken => exact he
        | _ => exact List.append_ne_nil_of_right_ne_nil _ (List.cons_ne_nil _ _)
      | fault => exact he
      | numeralTooLong => exact ⟨rest, token, ts, r.frames, rfl, hpending, he⟩
      | nestedTooDeeply => exact ⟨rest, token, ts, r.frames, rfl, hpending, he⟩

theorem complete_forms_cases (forms : List Datum) (frames : List Frame) (d : Datum) :
    (complete forms frames d).forms = forms ∨ ∃ d', complete forms frames d = ⟨d' :: forms, []⟩ := by
  fun_induction complete forms frames d with
  | case1 d => exact .inr ⟨d, rfl⟩
  | case5 _ _ _ _ ih => exact ih
  | _ => exact .inl rfl

theorem open?_forms {limit : Nat} {r next : Reader} {frame : Frame} (h : r.open? limit frame = .ok next) :
    next.forms = r.forms := by
  rcases open?_cases limit r frame with ho | ⟨_, ho⟩
  · rw [ho] at h
    obtain rfl := Except.ok.inj h
    rfl
  · simp [ho] at h

theorem quote?_forms {limit : Nat} {r next : Reader} {mark : Text} (h : r.quote? limit mark = .ok next) :
    next.forms = r.forms := by
  unfold quote? at h
  split at h
  · exact open?_forms h
  · simp at h

theorem close?_forms_cases {r next : Reader} (h : r.close? = .ok next) :
    next.forms = r.forms ∨ ∃ d, next = ⟨d :: r.forms, []⟩ := by
  unfold close? at h
  split at h
  · rw [← Except.ok.inj h]
    exact complete_forms_cases _ _ _
  · split at h
    · simp at h
    · rw [← Except.ok.inj h]
      exact complete_forms_cases _ _ _
  · simp at h

theorem dot?_forms {r next : Reader} (h : r.dot? = .ok next) : next.forms = r.forms := by
  unfold dot? at h
  split at h
  · simp at h
  · obtain rfl := Except.ok.inj h
    rfl
  · simp at h

/-- A token that is taken in completes no form, or one form and with it all open frames. -/
theorem step_forms_cases {limit : Nat} {r next : Reader} {token : Token} (h : r.step limit token = .ok next) :
    next.forms = r.forms ∨ ∃ d, next = ⟨d :: r.forms, []⟩ := by
  unfold step at h
  split at h
  · exact close?_forms_cases h
  split at h
  · simp at h
  split at h
  · exact .inl (open?_forms h)
  · exact .inl (quote?_forms h)
  · exact .inl (quote?_forms h)
  split at h
  · exact .inl (dot?_forms h)
  · obtain ⟨d, _, rfl⟩ := exists_of_map_eq_ok h
    exact complete_forms_cases _ _ _

/-- A step keeps the complete forms. -/
theorem forms_suffix_step {limit : Nat} {r next : Reader} {token : Token}
    (h : r.step limit token = .ok next) : r.forms <:+ next.forms := by
  rcases step_forms_cases h with hforms | ⟨d, rfl⟩
  · exact hforms ▸ List.suffix_rfl
  · exact List.suffix_cons d r.forms

/-- Reading on keeps the complete forms. -/
theorem forms_prefix_run (limit : Nat) (scanFailure : Option ScanError) (ts : List Token) (r : Reader) :
    r.forms.reverse <+: (run limit scanFailure ts r).forms := by
  induction ts generalizing r with
  | nil => exact List.prefix_rfl
  | cons token ts ih =>
    cases hstep : r.step limit token with
    | ok next =>
      rw [run_cons_ok hstep]
      exact (List.reverse_prefix.mpr (forms_suffix_step hstep)).trans (ih next)
    | error e =>
      refine ⟨[], ?_⟩
      rw [run_cons_error hstep, List.append_nil]

/-! ### Reading is exact -/

/-- A fault of the grammar stands where no datum begins: no datum stands behind the complete ones. -/
theorem not_denotes_of_malformed {limit : Nat} {done rest : List Token} {n : Nat} {reading : Reading}
    {e : ParseError} (hrun : run limit none (done ++ rest) start = reading)
    (hdone : DenotesAll done reading.forms n) (hfailure : reading.failure = some (.malformed e))
    {ts us : List Token} (hrest : rest = ts ++ us) (d : Datum) (m : Nat) : ¬Denotes ts d m := by
  intro hd
  have hrow := hdone.concat hd
  rw [hrest, ← List.append_assoc, start] at hrun
  rcases run_of_denotesAll_top limit none us [] hrow with htaken | ⟨e', he', herror⟩
  · have hprefix := forms_prefix_run limit none us ⟨(reading.forms ++ [d]).reverse ++ [], []⟩
    rw [← htaken, hrun] at hprefix
    have hlength := hprefix.length_le
    simp only [List.append_nil, List.reverse_reverse, List.length_append, List.length_singleton]
      at hlength
    omega
  · rw [hrun, hfailure] at herror
    obtain rfl := Option.some.inj herror
    exact he'

end Reader

/-- A source whose tokens are a row of data is read to the values of that row, unless it overruns a limit
of the host. -/
theorem readAll_of_denotesAll {limit n : Nat} {source : Text} {ds : List Datum}
    (h : (scan source).failure = none) (hds : DenotesAll (scan source).tokens ds n) (hlimit : n < limit)
    (hlong : ∀ token ∈ (scan source).tokens, ¬token.IsTooLong) : readAll limit source = ⟨ds, none⟩ := by
  have hrun := Reader.run_of_denotesAll_top limit none [] [] hds
  rw [List.append_nil] at hrun
  rw [readAll, h, Reader.start]
  rcases hrun with htaken | ⟨e, he, _⟩
  · rw [htaken]
    simp [Reader.run, Reader.missing?]
  · cases e with
    | numeralTooLong =>
      obtain ⟨token, hmem, htoken⟩ := he
      exact absurd htoken (hlong token hmem)
    | nestedTooDeeply => exact absurd hlimit (Nat.not_lt_of_le he)
    | malformed => exact he.elim
    | fault => exact he.elim

/-- Reading is exact. For a source that scans to its end, the forms are the values of a row of data that
the tokens begin with, and reading stops for one of these reasons only: no token is left; the grammar
admits no datum behind that row; or a limit of the host is overrun, by a decimal integer of too many digits
or by data nested too deeply. No other fault is possible. Conversely a source whose tokens are a row of
data is read without a failure to the values of that row, unless it overruns such a limit. A dotted list
that ends in a list is the list of all their items. -/
theorem readAll_exact (limit : Nat) {source : Text} (h : (scan source).failure = none) :
    (∃ done rest n, (scan source).tokens = done ++ rest ∧
      DenotesAll done (readAll limit source).forms n ∧
      Reader.Stops limit rest (readAll limit source).failure ∧
      ∀ e, (readAll limit source).failure = some (.malformed e) →
        ∀ ts us d m, rest = ts ++ us → ¬Denotes ts d m) ∧
    (∀ ds n, DenotesAll (scan source).tokens ds n → n < limit →
      (∀ token ∈ (scan source).tokens, ¬token.IsTooLong) → readAll limit source = ⟨ds, none⟩) ∧
    ∀ ds es, Datum.ofItems ds (.ofList es) = .ofList (ds ++ es) := by
  have hread : readAll limit source = Reader.run limit none (scan source).tokens Reader.start := by
    rw [readAll, h]
  obtain ⟨_, hspells, _⟩ := exists_spells_scan source
  have hstart : Reader.Follows [] Reader.start := ⟨[], [], 0, rfl, .nil, .nothing⟩
  refine ⟨?_, ?_, ?_⟩
  · obtain ⟨done, rest, n, htokens, hdone, hstops⟩ :=
      Reader.run_of_follows limit hstart hspells.exists_stands
    rw [← hread] at hdone hstops
    refine ⟨done, rest, n, htokens, hdone, hstops, ?_⟩
    intro e he ts us d m hrest
    rw [List.nil_append] at htokens
    rw [htokens] at hread
    exact Reader.not_denotes_of_malformed hread.symm hdone he hrest d m
  · intro ds n hds hlimit hlong
    exact readAll_of_denotesAll h hds hlimit hlong
  · intro ds es
    exact (List.foldr_append ..).symm

/-- Behind the symbol of `a )` no datum stands. -/
theorem readAll_unexpectedClose :
    (scan (text "a )")).failure = none ∧ ∃ done rest n, (scan (text "a )")).tokens = done ++ rest ∧
      DenotesAll done [.sym (text "a")] n ∧ rest ≠ [] ∧
      ∀ ts us d m, rest = ts ++ us → ¬Denotes ts d m := by
  have hscan : (scan (text "a )")).failure = none := by decide
  have hread : readAll nestingLimit (text "a )") =
      ⟨[.sym (text "a")], some (.malformed .unexpectedClose)⟩ := by rfl
  obtain ⟨⟨done, rest, n, htokens, hdone, hstops, hrest⟩, _, _⟩ := readAll_exact nestingLimit hscan
  rw [hread] at hdone hstops hrest
  exact ⟨hscan, done, rest, n, htokens, hdone, hstops, hrest _ rfl⟩

/-- The integer that is written with one digit too many. -/
def tooLongSource : Text := List.replicate (maxDecimalDigits + 1) '1'

/-- The digits of an integer are one token. -/
theorem scan_tooLongSource : scan tooLongSource = ⟨[⟨.symbol, tooLongSource⟩], none⟩ := by
  have hdigit : ∀ c ∈ tooLongSource, c = '1' := fun c hc => List.eq_of_mem_replicate hc
  refine scan_eq_iff.mpr ⟨[], ?_, .finished (.gap .nil)⟩
  have hspells : Spells [⟨.symbol, tooLongSource⟩] ([] ++ (tooLongSource ++ [])) [] := by
    refine .cons .nil (stands_symbol_of_not_hash ⟨?_, ?_⟩ ?_ ?_) .nil
    · exact List.cons_ne_nil _ _
    · intro c hc
      rw [hdigit c hc]
      decide
    · exact fun h => absurd (hdigit _ (List.mem_of_mem_head? h)) (by decide)
    · simp [EndsWord]
  rwa [List.nil_append, List.append_nil] at hspells

theorem isTooLong_tooLongSource : IsTooLong ⟨.symbol, tooLongSource⟩ := by
  have hsign : IsSign false [] := Or.inl rfl
  have hdigits : ∀ c ∈ tooLongSource, c.isDecimal = true := by
    intro c hc
    rw [List.eq_of_mem_replicate hc]
    decide
  have hcount : maxDecimalDigits < tooLongSource.length := by
    rw [tooLongSource, List.length_replicate]
    exact Nat.lt_succ_self _
  exact ⟨rfl, _, _, Numeral.DecimalWord.intro hsign (List.cons_ne_nil _ _) hdigits, hcount⟩

/-- An integer of too many digits stops the reading of a source. -/
theorem readAll_tooLongSource (limit : Nat) : readAll limit tooLongSource = ⟨[], some .numeralTooLong⟩ := by
  have hdot : ¬IsDot ⟨.symbol, tooLongSource⟩ := by
    intro h
    have hlength := congrArg List.length h.2
    rw [tooLongSource, List.length_replicate] at hlength
    exact absurd hlength (by decide)
  have hstep := Reader.step_atom limit (r := Reader.start) rfl ⟨rfl, by decide⟩ hdot
  rw [Reader.atom?_of_isTooLong isTooLong_tooLongSource] at hstep
  rw [readAll, scan_tooLongSource]
  exact Reader.run_cons_error hstep

/-- Not every row of data is read without a failure: an integer may have too many digits. -/
theorem not_reads_every_row_of_data :
    ¬∀ source, (scan source).failure = none →
      ((readAll nestingLimit source).failure = none ↔
        ∃ ds n, DenotesAll (scan source).tokens ds n) := by
  intro h
  obtain ⟨-, _, _, hword, -⟩ := isTooLong_tooLongSource
  have hdata : ∃ ds n, DenotesAll (scan tooLongSource).tokens ds n := by
    rw [scan_tooLongSource]
    exact ⟨_, _, .cons (.atom (.integer hword)) .nil⟩
  have hread := (h tooLongSource (by rw [scan_tooLongSource])).mpr hdata
  rw [readAll_tooLongSource] at hread
  cases hread

end Lisplet
