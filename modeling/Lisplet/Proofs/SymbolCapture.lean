import Lisplet.Proofs.FreshSymbols
import Lisplet.Proofs.ReadForms

/-!
# Fresh symbols in sources

A fresh symbol is told apart from every symbol but that of its own name. So a form that is read from a source
holds it only if its name stands there, and that can be: where the name is one that is read as a symbol, as it is
for every call without a prefix, a session that reads it first makes the same calls after it. A name that no
source spells is safe, and so is a form that has no names with a dash and a late number at the end.
-/

namespace Lisplet

open Lisplet.Action Token

/-! ### Symbols in forms -/

namespace Datum

/-- The symbol of a name stands somewhere in a datum. -/
def Mentions (name : Text) : Datum → Prop
  | sym w => w = name
  | pair head tail => head.Mentions name ∨ tail.Mentions name
  | _ => False

/-- Whatever a datum mentions is a name of the class that its names are of. -/
theorem HasNames.of_mentions {names : Text → Prop} {d : Datum} (h : d.HasNames names) {name : Text}
    (hd : d.Mentions name) : names name := by
  induction d with
  | sym w =>
    obtain rfl : w = name := hd
    exact h
  | pair head tail ih ih' => exact hd.elim (ih h.1) (ih' h.2)
  | _ => exact hd.elim

end Datum

/-- A symbol is told apart from every symbol in a datum. -/
def Value.IsApartFrom (v : Value) (d : Datum) : Prop := ∀ w, d.Mentions w → v.AreApart (.sym w)

/-- A symbol is told apart from those in a datum just if the datum does not mention its name. -/
theorem Value.isApartFrom_sym_iff {name : Text} {d : Datum} : (Value.sym name).IsApartFrom d ↔ ¬d.Mentions name := by
  constructor
  · intro h hmentions
    have hself := (h name hmentions exampleEvaluator rootScope exampleStore).1
    rw [TestOp.same_call] at hself
    simp at hself
  · intro h w hw
    refine Value.areApart_sym ?_
    rintro rfl
    exact h hw

/-! ### Names that are read -/

/-- A prefix whose fresh names are read as symbols: it begins like no numeral and like no mark, and has no
delimiter. -/
structure IsPlainPrefix (start : Text) : Prop where
  begins : ∃ c rest, start = c :: rest ∧ c ∉ text "+-.#" ∧ c.isDecimal = false
  undelimited : ∀ c ∈ start, c.isDelimiter = false

theorem isPlainPrefix_gensym : IsPlainPrefix (text "gensym") where
  begins := ⟨'g', text "ensym", rfl, by decide, by decide⟩
  undelimited := by decide

/-- A word that begins with no sign, digit, point or hash is no numeral. -/
theorem Numeral.parse_plain {c : CodePoint} (hc : c ∉ text "+-.#")
    (hdecimal : c.isDecimal = false) (t : Text) : Numeral.parse (c :: t) = .ok none := by
  have hne : ∀ d ∈ text "+-.#", c ≠ d := fun d hd h => hc (h ▸ hd)
  have hplus := hne '+' (by decide)
  have hminus := hne '-' (by decide)
  have hpoint := hne '.' (by decide)
  have hhash := hne '#' (by decide)
  have hsign : splitSign (c :: t) = (false, c :: t) := by simp [splitSign, hplus, hminus]
  have hparts : parseFloatParts? (c :: t) = none := by simp [parseFloatParts?, hdecimal, hpoint]
  have hspecial : special? (c :: t) = none := by
    have hinf : c :: t ≠ text "+inf.0" := fun h => hplus (List.cons.inj h).1
    have hninf : c :: t ≠ text "-inf.0" := fun h => hminus (List.cons.inj h).1
    have hnan : c :: t ≠ text "+nan.0" := fun h => hplus (List.cons.inj h).1
    have hnnan : c :: t ≠ text "-nan.0" := fun h => hminus (List.cons.inj h).1
    rw [special?, if_neg hinf, if_neg hninf, if_neg hnan, if_neg hnnan]
  have hmarked : marked? (c :: t) = none := by
    unfold marked?
    split
    next hash mark d body heq =>
      obtain ⟨rfl, -⟩ := List.cons.inj heq
      rw [if_neg hhash]
    next => rfl
  simp [parse, hsign, hdecimal, hparts, hspecial, hmarked]

theorem IsPlainPrefix.isReadableName {start : Text} (h : IsPlainPrefix start) (n : Nat) :
    IsReadableName (freshName start n) := by
  obtain ⟨c, rest, rfl, hc, hdecimal⟩ := h.begins
  have hparse : Numeral.parse (freshName (c :: rest) n) = .ok none := Numeral.parse_plain hc hdecimal _
  -- Whatever begins with such a prefix is no boolean, no radix numeral and no comment.
  have hhash : c ≠ ('#' : CodePoint) := by
    rintro rfl
    exact hc (by decide)
  have hmark (d : CodePoint) : ¬[('#' : CodePoint), d] <+: freshName (c :: rest) n := by
    intro hprefix
    exact hhash (List.cons_prefix_cons.mp hprefix).1.symm
  refine ⟨⟨?_, ?_⟩, ?_, hmark _, hmark _, ?_, hparse⟩
  · simp [freshName]
  · intro d hd
    rw [freshName, List.mem_append, List.mem_append] at hd
    rcases hd with (hd | hd) | hd
    · exact h.undelimited d hd
    · obtain rfl : d = '-' := List.mem_singleton.mp hd
      rfl
    · exact isDelimiter_of_isSome_radixDigit? (isSome_radixDigit?_of_mem_natText hd)
  · intro hdot
    have hpoint : c = '.' := (List.cons.inj hdot).1
    rw [hpoint] at hc
    exact hc (by decide)
  · intro hmem
    have hhashed : ∀ w ∈ booleanTexts, w.head? = some ('#' : CodePoint) := by decide
    exact hhash (Option.some.inj (hhashed _ hmem))

/-! ### Sources of one name -/

/-- A readable name is a source of the symbol of that name. -/
theorem readAll_name {name : Text} (h : IsReadableName name) (limit : Nat) :
    readAll limit name = ⟨[.sym name], none⟩ := by
  obtain ⟨hstands, hdenotes⟩ := writes_name h
  have hread := readAll_atom hdenotes (not_isTooLong_of_parse h.notNumeral) (hstands [] closes_nil) limit
  rw [List.append_nil] at hread
  rw [hread]
  rfl

/-- Looking a name up leaves the store alone. -/
theorem Evaluator.nested_eval_sym_looks (rounds nesting depth : Nat) (name : Text) (scope : ScopeId) :
    ((nested rounds nesting depth).eval (.sym name) scope).Looks := by
  cases depth with
  | zero => exact .throw _
  | succ depth =>
    cases rounds with
    | zero => exact .throw _
    | succ rounds =>
      show ((lookup scope name >>= fun v => pure (Step.value v)) >>= _).Looks
      rw [bind_assoc]
      exact .bind (lookup_looks scope name) fun v => .pure v

/-- Evaluating a source of one name leaves the store alone. -/
theorem Session.evaluate_name_looks {name : Text} (h : IsReadableName name) (b : Bounds) :
    (evaluate b.evaluator name).Looks := by
  have hdata : b.evaluator.evalData rootScope [.sym name] = b.evaluator.eval (.sym name) rootScope :=
    pure_bind (Value.sym name) fun expr => b.evaluator.eval expr rootScope
  have hlimited : (limited (b.evaluator.evalData rootScope [.sym name])).Looks := by
    intro s
    rw [after_limited, hdata]
    exact Evaluator.nested_eval_sym_looks b.rounds b.nesting b.depth name rootScope s
  rw [evaluate, readAll_name h]
  exact hlimited.bind fun v => .pure v

/-! ### Calls and the forms of a session -/

/-- What is spelled as a fresh name is no hash and backslash. -/
theorem isReadableName_of_isReadName {start : Text} {n : Nat} (h : Datum.IsReadName (freshName start n)) :
    IsReadableName (freshName start n) := by
  refine h.resolve_right fun heq => ?_
  have hdash : ('-' : CodePoint) ∈ freshName start n := by
    rw [freshName, List.mem_append, List.mem_append]
    exact .inl (.inr (by decide))
  rw [heq] at hdash
  exact absurd hdash (by decide)

namespace Session

/-- Behind a source of one name a session makes the calls that it makes without it. -/
theorem Issues.behind_name {requests : List (Bounds × Request)} {s : Store} {issues : List Issue}
    (h : Issues requests s issues) {name : Text} (hname : IsReadableName name) (b : Bounds) :
    Issues ((b, .source name) :: requests) s issues := by
  have hafter : ((Request.source name).perform b).after s = s := evaluate_name_looks hname b s
  have hnone : ((Request.source name).perform b).Issues s [] := .none (congrArg Store.nextFresh hafter)
  have hrest : Issues requests (((Request.source name).perform b).after s) issues := by rwa [hafter]
  exact .cons hnone hrest

/-- A source that spells the name of the first fresh symbol before it calls for it. -/
def meetingSource : Text := text "(eq? (quote gensym-1) (gensym))"

/-- The form of the source. -/
def meetingForm : Datum :=
  .ofList [.sym "eq?", .ofList [.sym "quote", .sym "gensym-1"], .ofList [.sym "gensym"]]

theorem readAll_meetingSource : readAll nestingLimit meetingSource = ⟨[meetingForm], none⟩ := by rfl

/-- Evaluating the source in a new session makes one call. -/
theorem issues_meetingSource (depth rounds : Nat) :
    Issues [(⟨depth + 3, rounds + 1, nestingLimit⟩, .source meetingSource)] emptyStore
      [⟨"gensym", .sym "gensym-1"⟩] := by
  let s : Store := { emptyStore with nextObject := 8 }
  let s' : Store := { s with nextFresh := 2 }
  let inner := Evaluator.nested (rounds + 1) nestingLimit (depth + 1)
  let outer := Evaluator.nested (rounds + 1) nestingLimit (depth + 2)
  let quoted := Value.list 3 (.sym "quote") [.sym "gensym-1"] none
  let call := Value.list 4 (.sym "gensym") [] none
  -- Evaluated by parts, so that the call is found where it stands in the run.
  have hcall : (outer.eval call rootScope).Issues s [⟨"gensym", .sym "gensym-1"⟩] := by
    have hproc : inner.eval (.sym "gensym") rootScope s = .ok (.atom (.primitive (.control .gensym))) s := by rfl
    have hargs : inner.operands rootScope [] s = .ok [] s := rfl
    exact Evaluator.trampoline_gensym (by rfl) hproc hargs rfl 4 _
  have hoperands : (outer.operands rootScope [quoted, call]).Issues s [⟨"gensym", .sym "gensym-1"⟩] := by
    have hquoted : outer.eval quoted rootScope s = .ok (.sym "gensym-1") s := by rfl
    have hnone : (outer.eval quoted rootScope).Issues s [] := .none (by rw [after_of_ok hquoted])
    have hvalue : outer.eval call rootScope s = .ok (.sym "gensym-1") s' := by rfl
    exact Evaluator.operands_issues hnone hquoted (Evaluator.operands_issues hcall hvalue (.none rfl))
  have hstep : (outer.step (.list 7 (.sym "eq?") [quoted, call] none) rootScope).Issues s
      [⟨"gensym", .sym "gensym-1"⟩] := by
    have hproc : outer.eval (.sym "eq?") rootScope s = .ok (.atom (.primitive (.tests .same))) s := by rfl
    have hargs : outer.operands rootScope [quoted, call] s = .ok [.sym "gensym-1", .sym "gensym-1"] s' := by rfl
    exact Evaluator.step_issues (by rfl) (.none (by rw [after_of_ok hproc])) hproc hoperands hargs (.none (by rfl)) 7
  have hvalue : outer.step (.list 7 (.sym "eq?") [quoted, call] none) rootScope s = .ok (.value (.bool true)) s' := by
    rfl
  have hsource : ((Request.source meetingSource).perform ⟨depth + 3, rounds + 1, nestingLimit⟩).Issues emptyStore
      [⟨"gensym", .sym "gensym-1"⟩] :=
    evaluate_issues readAll_meetingSource (by rfl) (Evaluator.trampoline_issues hstep hvalue _)
  exact .cons hsource .nil

/-- What the symbol that the call of a number gave has to do with the forms of sources: it is told apart from all
symbols but that of its name. Where the name cannot be read, it is told apart from those of every form that is read;
where it can, the same calls are made by a session that reads it first. It can if the prefix is plain. A form that
mentions no fresh name with this number or a later one is safe. -/
structure MeetsByName (requests : List (Bounds × Request)) (s : Store) (issues : List Issue) (issue : Issue)
    (n : Nat) : Prop where
  apart_iff (d : Datum) : issue.symbol.IsApartFrom d ↔ ¬d.Mentions (freshName issue.start n)
  unread (hname : ¬IsReadableName (freshName issue.start n)) (limit : Nat) (source : Text) :
    ∀ d ∈ (readAll limit source).forms, issue.symbol.IsApartFrom d
  reread (hname : IsReadableName (freshName issue.start n)) (b : Bounds) :
    readAll b.nesting (freshName issue.start n) = ⟨[.sym (freshName issue.start n)], none⟩ ∧
      Issues ((b, .source (freshName issue.start n)) :: requests) s issues
  plain : IsPlainPrefix issue.start → IsReadableName (freshName issue.start n)
  late (d : Datum) (hd : ∀ start m, n ≤ m → ¬d.Mentions (freshName start m)) : issue.symbol.IsApartFrom d

/-- A call for a fresh symbol gives the symbol of its prefix, a dash and its number, and forms that are read meet it
by that name. -/
theorem fresh_symbols_meet_forms_by_name {requests : List (Bounds × Request)} {s : Store} {issues : List Issue}
    (h : Issues requests s issues) {k : Nat} {issue : Issue} (hk : issues[k]? = some issue) :
    MeetsByName requests s issues issue (s.nextFresh + k) := by
  have hapart (d : Datum) : issue.symbol.IsApartFrom d ↔ ¬d.Mentions (freshName issue.start (s.nextFresh + k)) := by
    rw [h.numbered.2 k issue hk]
    exact Value.isApartFrom_sym_iff
  constructor
  · exact hapart
  · intro hname limit source d hd
    refine (hapart d).mpr fun hmentions => hname ?_
    exact isReadableName_of_isReadName ((isForm_of_mem_readAll hd).hasNames.of_mentions hmentions)
  · intro hname b
    exact ⟨readAll_name hname b.nesting, h.behind_name hname b⟩
  · intro hstart
    exact hstart.isReadableName _
  · intro d hd
    exact (hapart d).mpr (hd issue.start _ (Nat.le_refl _))

/-- The call in that source has a name that can be read. -/
theorem fresh_symbols_meet_forms_by_name_gensym :
    Issues [(.standard, .source meetingSource)] emptyStore [⟨"gensym", .sym "gensym-1"⟩] ∧
      MeetsByName [(.standard, .source meetingSource)] emptyStore [⟨"gensym", .sym "gensym-1"⟩]
        ⟨"gensym", .sym "gensym-1"⟩ 1 ∧ IsReadableName (freshName "gensym" 1) := by
  have hissues : Issues [(.standard, .source meetingSource)] emptyStore _ := issues_meetingSource 8327 999999999999999
  have hmeets := fresh_symbols_meet_forms_by_name hissues List.getElem?_cons_zero
  exact ⟨hissues, hmeets, hmeets.plain isPlainPrefix_gensym⟩

/-- The form was read before the call, and the call gives a symbol that stands in it. -/
theorem not_fresh_symbols_apart_from_read_ones :
    ¬∀ issues, Issues [(.standard, .source meetingSource)] emptyStore issues → ∀ issue ∈ issues,
      ∀ d ∈ (readAll Bounds.standard.nesting meetingSource).forms, issue.symbol.IsApartFrom d := by
  intro h
  have hissues : Issues [(.standard, .source meetingSource)] emptyStore _ := issues_meetingSource 8327 999999999999999
  have hmentions : meetingForm.Mentions "gensym-1" := .inr (.inl (.inr (.inl rfl)))
  have hform : meetingForm ∈ (readAll Bounds.standard.nesting meetingSource).forms := by
    rw [Bounds.standard, readAll_meetingSource]
    exact List.mem_singleton_self _
  exact Value.isApartFrom_sym_iff.mp (h _ hissues _ (List.mem_singleton_self _) _ hform) hmentions

end Session

end Lisplet
