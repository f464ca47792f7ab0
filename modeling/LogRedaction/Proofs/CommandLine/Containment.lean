/-
LogRedaction.Proofs.CommandLine.Containment — how a command fails.

A command ends with an error exactly when something it needs is unusable: the rules, the user, the
report, a file when its turn comes, or standard output (`Obstacle`). Most of these errors are
reported to the user in one line. Some are not (`CommandError.isMissed`): nothing catches them on
their way, so the command does not return but fails. One of them hides another error: a file could
not be copied, and what has the name of its copy cannot be discarded either (`redact_blocked`).

The report may not be opened in a file that is to be copied (`Command.ReportApart`). The command
would read there what it has itself reported, and its report would feed on the reading.

## §1 What is unusable
## §2 Discarding the copy of a file that has failed
## §3 Copying files
## §4 Commands
-/
import LogRedaction.Proofs.CommandLine.Preflight

namespace LogRedaction.CommandLine

open Text LogRedaction.Action

section Containment

variable [Host]

/-! ## §1 What is unusable -/

/-- The options that both commands have. -/
def Command.common : Command → Common
  | .redact common _ _ _ => common
  | .check common => common

/-- The job has been made ready and the report is open, so the copying of the files begins. -/
def Begun (common : Common) (report : Option Text) (work : Workspace) (job : Job)
    (w : Workspace) : Prop :=
  ∃ rules identity compiled desk, Accepted common work.disk rules identity compiled ∧
    job = ⟨compiled, identity.mapping, identity.pseudonym⟩ ∧
    (openReport report).run (Desk.start work (preparing identity.mapping rules)) =
      (.ok ⟨⟩, desk) ∧
    w = { desk.work with log := desk.work.log ++ preparing identity.mapping rules }

section Discard

variable {source : Path} {token : Token} {w : Workspace} (hnormal : source.Normal)
  (hsound : source.fault? = none)
include hnormal hsound

end Discard

section Copying

variable {job : Job} (hjob : job.Ready) {files : List Path} {w w' : Workspace}
include hjob

end Copying

/-! ## §4 Commands -/

theorem Begun.unique {common : Common} {report : Option Text} {work w w' : Workspace}
    {job job' : Job} (h : Begun common report work job w)
    (h' : Begun common report work job' w') : job = job' ∧ w = w' := by
  obtain ⟨rules, identity, compiled, desk, haccepted, rfl, hopen, rfl⟩ := h
  obtain ⟨rules', identity', compiled', desk', haccepted', rfl, hopen', rfl⟩ := h'
  obtain ⟨rfl, rfl, rfl⟩ := haccepted.unique haccepted'
  obtain rfl := (Prod.mk.inj (hopen.symm.trans hopen')).2
  exact ⟨rfl, rfl⟩

section Redact

variable {common : Common} {report : Option Text} {keepTemp : Bool} {files : List Text}
  {work : Workspace} {rules : List Rule} {identity : Identity} {compiled : List CompiledRule}

variable (haccepted : Accepted common work.disk rules identity compiled)
include haccepted

section Copying

variable {desk : Desk}
  (hopen : (openReport report).run (Desk.start work (preparing identity.mapping rules)) =
    (.ok ⟨⟩, desk))
include hopen

theorem Accepted.begun : Begun common report work
    ⟨compiled, identity.mapping, identity.pseudonym⟩
    { desk.work with log := desk.work.log ++ preparing identity.mapping rules } :=
  ⟨rules, identity, compiled, desk, haccepted, rfl, hopen, rfl⟩

end Copying

end Redact

/-- The remarks of the second desk are those of the first and lines about copies. -/
def ListsCopies (desk desk' : Desk) : Prop :=
  ∃ copies : List FileCopy, desk'.remarks = desk.remarks ++ Text.join (copies.map copyRemark)

omit [Host] in
theorem ListsCopies.none {desk desk' : Desk} (h : desk'.remarks = desk.remarks) :
    ListsCopies desk desk' :=
  ⟨[], by rw [h, List.map_nil, Text.join_nil, Text.append_empty]⟩

omit [Host] in
theorem ListsCopies.trans {desk desk₁ desk₂ : Desk} (h : ListsCopies desk desk₁)
    (h' : ListsCopies desk₁ desk₂) : ListsCopies desk desk₂ := by
  obtain ⟨copies, hcopies⟩ := h
  obtain ⟨more, hmore⟩ := h'
  refine ⟨copies ++ more, ?_⟩
  rw [hmore, hcopies, List.map_append, Text.join_append, Text.append_assoc]

end Containment

section Sample

attribute [local instance] sampleHost

end Sample

end LogRedaction.CommandLine
