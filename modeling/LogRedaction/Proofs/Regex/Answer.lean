/-
LogRedaction.Proofs.Regex.Answer — what the matcher answers.

The matcher is asked with a continuation and answers with the first state, in order of preference,
that the continuation accepts. Nothing is known here of the expression. Whatever it is, two things
hold of the state that was accepted. It is at a position ahead, reached over characters of the text
(`Cursor.LeadsTo`). And it does not depend on who asked: every other continuation that accepts it
gets an answer, too (`Reaches`), so which states there are to choose from is a matter of the
expression alone.

`Honest` is both together. It holds of every step, choice, sequence and repetition, hence of every
expression: `Pattern.honest`. Assertions look elsewhere, also back, but what follows them is matched
where they stand.

## §1 Positions ahead
## §2 Answers
## §3 Expressions
-/
import LogRedaction.Proofs.Regex.Word

namespace LogRedaction.Regex

/-! ## §1 Positions ahead -/

/-- The second position is reached from the first over characters of the text. -/
def Cursor.LeadsTo (c d : Cursor) : Prop :=
  ∃ piece, c.after = piece ++ d.after ∧ d = c.past piece d.after

namespace Cursor.LeadsTo

variable {c d e : Cursor}

theorem refl (c : Cursor) : c.LeadsTo c := ⟨[], rfl, rfl⟩

theorem trans (h : c.LeadsTo d) (h' : d.LeadsTo e) : c.LeadsTo e := by
  obtain ⟨piece, hafter, hd⟩ := h
  obtain ⟨more, hafter', he⟩ := h'
  refine ⟨piece ++ more, by rw [hafter, hafter', List.append_assoc], ?_⟩
  rw [he, hd]
  simp [past, Nat.add_assoc]

/-- The way from the first position to the second, and what is after it. -/
theorem eq_past (h : c.LeadsTo d) :
    c.after = c.upTo d ++ d.after ∧ d = c.past (c.upTo d) d.after := by
  obtain ⟨piece, hafter, hd⟩ := h
  have hpiece : c.upTo d = piece := by
    rw [hd]
    exact upTo_past hafter
  rw [hpiece]
  exact ⟨hafter, hd⟩

/-- What is before the second position: what is before the first, and the way between them. -/
theorem before_eq (h : c.LeadsTo d) : d.before.reverse = c.before.reverse ++ c.upTo d := by
  have hbefore := congrArg (fun e : Cursor => e.before.reverse) h.eq_past.2
  simpa [past] using hbefore

theorem index_eq (h : c.LeadsTo d) (hindex : c.index = c.before.length) :
    d.index = d.before.length := by
  obtain ⟨piece, -, hd⟩ := h
  rw [hd]
  simp [past, hindex, Nat.add_comm]

theorem of_step? {test : CodePoint → Bool} (h : c.step? test = some d) : c.LeadsTo d := by
  obtain ⟨before, after, index⟩ := c
  rw [step?, next?] at h
  cases after with
  | nil => cases h
  | cons x rest =>
      simp only at h
      split at h
      · obtain rfl := Option.some.inj h
        exact ⟨[x], rfl, rfl⟩
      · cases h

theorem of_stepOver? {folding : Folding} {text : List CodePoint}
    (h : c.stepOver? folding text = some d) : c.LeadsTo d := by
  induction text generalizing c with
  | nil =>
      obtain rfl := Option.some.inj h
      exact .refl c
  | cons x text ih =>
      rw [stepOver?] at h
      split at h
      · rename_i hstep
        exact (of_step? hstep).trans (ih h)
      · cases h

end Cursor.LeadsTo

/-- All positions on the way are ahead of where it begins. -/
theorem leadsTo_of_mem_reach {test : CodePoint → Bool} {c d : Cursor} :
    ∀ {after before : List CodePoint} {index : Nat} {most : Option Nat} {passed : List Cursor},
      c.LeadsTo ⟨before, after, index⟩ → (∀ e ∈ passed, c.LeadsTo e) →
      d ∈ reach test before index most passed after → c.LeadsTo d
  | [], before, index, most, passed, hhere, hpassed, hmem => by
      rw [reach] at hmem
      rcases List.mem_cons.mp hmem with rfl | hmem
      · exact hhere
      · exact hpassed d hmem
  | x :: after, before, index, most, passed, hhere, hpassed, hmem => by
      have hall : ∀ e ∈ (⟨before, x :: after, index⟩ : Cursor) :: passed, c.LeadsTo e :=
        List.forall_mem_cons.mpr ⟨hhere, hpassed⟩
      simp only [reach] at hmem
      split at hmem
      · exact hall d hmem
      · exact leadsTo_of_mem_reach (hhere.trans ⟨[x], rfl, rfl⟩) hall hmem

theorem leadsTo_of_mem_stops {test : CodePoint → Bool} {least : Nat} {most : Option Nat}
    {greed : Greed} {c d : Cursor} (h : d ∈ greed.order (stops test least most c)) : c.LeadsTo d := by
  have hstops : d ∈ stops test least most c := by
    cases greed with
    | greedy => exact h
    | lazy => exact List.mem_reverse.mp h
    | possessive => exact List.mem_of_mem_take h
  exact leadsTo_of_mem_reach (.refl c) (by simp) (List.mem_of_mem_take hstops)

/-! ## §2 Answers -/

/-- The state is among those to choose from: whatever accepts it gets an answer. -/
def Reaches (run : Continuation → Option State) (t : State) : Prop :=
  ∀ k : Continuation, (k t).isSome → (run k).isSome

/-- Every answer is what the continuation has made of a state that is reached, at a position ahead
of the given one. -/
def Honest (c : Cursor) (run : Continuation → Option State) : Prop :=
  ∀ k answer, run k = some answer → ∃ t, c.LeadsTo t.cursor ∧ Reaches run t ∧ k t = some answer

namespace Honest

variable {c : Cursor}

/-- A step does not depend on what follows it. -/
theorem step {next? : Option State} (hahead : ∀ t, next? = some t → c.LeadsTo t.cursor) :
    Honest c fun k => next?.bind k := by
  intro k answer hk
  obtain ⟨t, rfl, haccept⟩ := Option.bind_eq_some_iff.mp hk
  exact ⟨t, hahead t rfl, fun _ h => h, haccept⟩

theorem there {t : State} (hahead : c.LeadsTo t.cursor) : Honest c fun k => k t := by
  intro k answer hk
  exact ⟨t, hahead, fun _ h => h, hk⟩

theorem here (s : State) : Honest s.cursor fun k => k s := there (.refl _)

theorem nowhere : Honest c fun _ => none := by
  intro k answer hk
  cases hk

theorem move {s : State} {next? : Option Cursor}
    (hahead : ∀ d, next? = some d → s.cursor.LeadsTo d) :
    Honest s.cursor fun k => next?.bind fun d => k (s.moveTo d) := by
  intro k answer hk
  obtain ⟨d, rfl, haccept⟩ := Option.bind_eq_some_iff.mp hk
  exact ⟨s.moveTo d, hahead d rfl, fun _ h => h, haccept⟩

theorem seq {run : Continuation → Option State} {next : State → Continuation → Option State}
    (hrun : Honest c run) (hnext : ∀ t, Honest t.cursor (next t)) :
    Honest c fun k => run fun t => next t k := by
  intro k answer hk
  obtain ⟨t, hahead, ht, hmore⟩ := hrun _ answer hk
  obtain ⟨u, hfurther, hu, haccept⟩ := hnext t k answer hmore
  exact ⟨u, hahead.trans hfurther, fun k' h => ht _ (hu k' h), haccept⟩

theorem orElse {first second : Continuation → Option State} (hfirst : Honest c first)
    (hsecond : Honest c second) :
    Honest c fun k => match first k with
      | some answer => some answer
      | none => second k := by
  intro k answer hk
  cases hanswer : first k with
  | some a =>
      simp only [hanswer, Option.some.injEq] at hk
      obtain ⟨t, hahead, ht, haccept⟩ := hfirst k answer (hanswer.trans (congrArg some hk))
      refine ⟨t, hahead, fun k' h => ?_, haccept⟩
      obtain ⟨b, hb⟩ := Option.isSome_iff_exists.mp (ht k' h)
      simp [hb]
  | none =>
      simp only [hanswer] at hk
      obtain ⟨t, hahead, ht, haccept⟩ := hsecond k answer hk
      refine ⟨t, hahead, fun k' h => ?_, haccept⟩
      have hsome := ht k' h
      cases hb : first k' with
      | some b => simp [hb]
      | none => simpa [hb] using hsome

theorem findSome? {α : Type} {next : α → Continuation → Option State} {choices : List α}
    (hnext : ∀ a ∈ choices, Honest c (next a)) :
    Honest c fun k => choices.findSome? fun a => next a k := by
  induction choices with
  | nil => exact nowhere
  | cons a choices ih =>
      have heq : (fun k => (a :: choices).findSome? fun a => next a k) = fun k =>
          match next a k with
          | some answer => some answer
          | none => choices.findSome? fun a => next a k := by
        funext k
        rw [List.findSome?_cons]
        cases next a k <;> rfl
      rw [heq]
      exact orElse (hnext a (List.mem_cons_self ..))
        (ih fun b hb => hnext b (List.mem_cons_of_mem _ hb))

end Honest

section Repetition

variable {body : Continuation → Continuation} (hbody : ∀ s, Honest s.cursor fun k => body k s)
include hbody

theorem leadsTo_of_body {s t : State} (h : body some s = some t) : s.cursor.LeadsTo t.cursor := by
  obtain ⟨t', hahead, -, hsome⟩ := hbody s some t h
  rw [← Option.some.inj hsome]
  exact hahead

theorem leadsTo_asLongAs (room : List CodePoint) (most last : Option Nat) (s : State) :
    s.cursor.LeadsTo (asLongAs body room most last s).cursor := by
  induction room generalizing most last s with
  | nil =>
      rw [asLongAs]
      split
      · exact .refl _
      cases hrun : body some s with
      | none => exact .refl _
      | some t => exact leadsTo_of_body hbody hrun
  | cons x room ih =>
      rw [asLongAs]
      split
      · exact .refl _
      split
      · rename_i hrun
        exact (leadsTo_of_body hbody hrun).trans (ih _ _ _)
      · exact .refl _

theorem leadsTo_timesOnce {n : Nat} {s t : State} (hrun : timesOnce body n s = some t) :
    s.cursor.LeadsTo t.cursor := by
  induction n generalizing s with
  | zero =>
      rw [← Option.some.inj hrun]
      exact .refl _
  | succ n ih =>
      obtain ⟨between, hfirst, hmore⟩ := Option.bind_eq_some_iff.mp hrun
      exact (leadsTo_of_body hbody hfirst).trans (ih hmore)

theorem honest_times (n : Nat) (s : State) : Honest s.cursor fun k => times body n k s := by
  induction n generalizing s with
  | zero => exact .here s
  | succ n ih => exact .seq (hbody s) ih

theorem honest_moreFirst (room : List CodePoint) (most last : Option Nat) (s : State) :
    Honest s.cursor fun k => moreFirst body k room most last s := by
  induction room generalizing most last s with
  | nil =>
      simp only [moreFirst]
      split
      · exact .here s
      · exact .orElse (hbody s) (.here s)
  | cons x room ih =>
      simp only [moreFirst]
      split
      · exact .here s
      · exact .orElse (.seq (hbody s) (ih _ _)) (.here s)

theorem honest_lessFirst (room : List CodePoint) (most last : Option Nat) (s : State) :
    Honest s.cursor fun k => lessFirst body k room most last s := by
  induction room generalizing most last s with
  | nil =>
      simp only [lessFirst]
      refine .orElse (.here s) ?_
      split
      · exact .nowhere
      · exact hbody s
  | cons x room ih =>
      simp only [lessFirst]
      refine .orElse (.here s) ?_
      split
      · exact .nowhere
      · exact .seq (hbody s) (ih _ _)

theorem honest_repeatRun (greed : Greed) (least : Nat) (most : Option Nat) (s : State) :
    Honest s.cursor fun k => repeatRun greed least most body k s := by
  cases greed with
  | greedy => exact .seq (honest_times hbody least s) fun t => honest_moreFirst hbody _ _ _ t
  | lazy => exact .seq (honest_times hbody least s) fun t => honest_lessFirst hbody _ _ _ t
  | possessive =>
      -- Nothing is tried a second time, so the last state is settled before what follows is asked.
      have hsettled := @Honest.step s.cursor ((timesOnce body least s).map fun t =>
        asLongAs body t.cursor.after (most.map (· - least)) none t) (by
          intro t ht
          obtain ⟨between, hbetween, rfl⟩ := Option.map_eq_some_iff.mp ht
          exact (leadsTo_timesOnce hbody hbetween).trans (leadsTo_asLongAs hbody _ _ _ between))
      simp only [Option.bind_map] at hsettled
      exact hsettled

end Repetition

/-! ## §3 Expressions -/

/-- The matcher makes no answer up, and only moves ahead. -/
theorem Pattern.honest (p : Pattern) (flags : Flags) (s : State) :
    Honest s.cursor fun k => p.run flags k s := by
  induction p generalizing flags s with
  | empty => exact .here s
  | seq p q ihp ihq => exact .seq (ihp flags s) (ihq flags)
  | alt p q ihp ihq => exact .orElse (ihp flags s) (ihq flags s)
  | anchor test =>
      simp only [Pattern.run]
      split
      · exact .here s
      · exact .nowhere
  | capture group p ih => exact .seq (ih flags (s.enter group)) fun t => .here (t.leave group)
  | flagged change p ih => exact ih (change.apply flags) s
  | atomic p ih => exact .step fun t ht => leadsTo_of_body (ih flags) ht
  | repeated greed least most p ih =>
      simp only [Pattern.run]
      split
      · exact .findSome? fun c hc => .there (leadsTo_of_mem_stops hc)
      · exact honest_repeatRun (ih flags) greed least most s
  | backref group width =>
      simp only [Pattern.run]
      split
      · exact .move fun c hc => .of_stepOver? hc
      · exact .nowhere
  | conditional group p q ihp ihq =>
      simp only [Pattern.run]
      split
      · exact ihp flags s
      · exact ihq flags s
  | look direction negative p ih =>
      simp only [Pattern.run]
      split
      · exact .there (.refl s.cursor)
      · exact .nowhere
      · exact .nowhere
      · exact .here s
  | literal code => exact .move fun c hc => .of_step? hc
  | notLiteral code => exact .move fun c hc => .of_step? hc
  | any => exact .move fun c hc => .of_step? hc
  | set negated members => exact .move fun c hc => .of_step? hc

end LogRedaction.Regex
