/-
LogRedaction.Proofs.CommandLine.Preservation — what the command can do to files that were there.

Whatever is listed, whatever is on the disk, and however the command ends: what was there before is
there afterwards as it was, but for the report, which is added to at its end, and for listed files,
which are replaced by their redactions when the command ends well. `Fate` says so for one location,
and `redact_preserves` for all of them.

There is one more case. The name for a copy is chosen before the copy is made, and it may be that
something has this name already. Then the copy cannot be made, and as the command fails it discards
what has the name of the copy, which is not its own (`redact_occupied`).

## §1 What can become of what was there
## §2 Parts of the command
## §3 The command
-/
import LogRedaction.Proofs.CommandLine.Execution
import LogRedaction.Proofs.Growth
import LogRedaction.Proofs.Session

namespace LogRedaction.CommandLine

open Text LogRedaction.Action

/-! ## §1 What can become of what was there -/

section Preservation

variable [Host]

section Fates

variable (common : Common) (report : Option Text) (keepTemp : Bool) (files : List Text)
  (before after : Disk) (error : Option CommandError)

/-- The path that is given for the report leads to where the file with the serial number was. -/
def ReportsTo (serial : Nat) : Prop :=
  ∃ text path place content, report = some text ∧
    (Path.ofText text).expandHome? Host.home? = some path ∧ after.Names path place ∧
    before.get? place = some (.file serial content)

/-- The entry is as it was. If it is the file of the report, there may be more at its end. -/
inductive Remains : Entry → Entry → Prop where
  | same (entry : Entry) : Remains entry entry
  | reported {serial : Nat} (content more : List UInt8) :
      ReportsTo report before after serial →
      Remains (.file serial content) (.file serial (content ++ more))

/-- What the command can do to an entry that was at the location before. -/
inductive Fate (location : Location) (entry : Entry) : Prop where
  | kept {later : Entry} : Remains report before after entry later →
      after.get? location = some later → Fate location entry
  /-- A listed file is replaced by its redaction, and then the command has ended well. -/
  | replaced {file patterns : Text} {rules : List Rule} {serial serial' : Nat}
      {content redacted : List UInt8} : error = none → keepTemp = false → file ∈ files →
      after.Names (Path.ofText file) location → common.patterns = some patterns →
      Rule.ofFile before patterns = .ok rules →
      Remains report before after entry (.file serial content) →
      Redacts common.identity rules content redacted →
      after.get? location = some (.file serial' redacted) → Fate location entry
  /-- The copy of a listed file could not be made, because a file had its name already. This is the
  error, unless the report is written out and standard output does not take it. -/
  | discarded {file : Text} {token : Token} {temp : Path} {failure : FileFailure}
      {completed : List FileCopy} : (error = some (.run (.file failure completed)) ∨
        report = none ∧ ∃ complaint, error = some (.output complaint)) →
      entry ≠ .directory → file ∈ files → temp = tempPath token (Path.ofText file) →
      failure.temp = some temp → failure.cause = .disk ⟨.exists, temp.toText, none⟩ →
      after.Names temp location → after.get? location = none → Fate location entry

end Fates

/-! ## §2 Parts of the command -/

section Report

variable {report : Option Text} {desk desk' : Desk}

/-- The report takes records at its end, and its file has not been lost on opening it. -/
structure Opened (report : Option Text) (before : Disk) (work : Workspace) : Prop where
  appends : work.report.appends
  memory : work.report.serial? = none → report = none
  serial : ∀ serial, work.report.serial? = some serial → serial < work.disk.nextSerial
  grown : Disk.Grown none before work.disk
  reportsTo : ∀ serial, work.report.serial? = some serial → serial < before.nextSerial →
    ReportsTo report before work.disk serial

theorem openReport_opened (hnumbered : desk.work.disk.Numbered)
    (hrun : (openReport report).run desk = (.ok ⟨⟩, desk')) :
    Opened report desk.work.disk desk'.work := by
  cases report with
  | none =>
      obtain ⟨-, rfl⟩ := Prod.mk.inj hrun
      exact ⟨trivial, fun _ => rfl, nofun, .refl _ _, nofun⟩
  | some text =>
      rw [run_openReport_some] at hrun
      rcases hopen : FileReport.open? desk.work.disk text true with ⟨e | f, disk⟩
      · rw [hopen] at hrun
        cases hrun
      rw [hopen] at hrun
      obtain ⟨-, rfl⟩ := Prod.mk.inj hrun
      obtain ⟨-, hmode, hlt, hold⟩ := FileReport.open?_eq_ok hopen hnumbered
      refine ⟨hmode, nofun, ?_, FileReport.open?_grown hopen, ?_⟩
      · rintro serial ⟨⟩
        exact hlt
      · rintro serial ⟨⟩ hbefore
        obtain ⟨path, place, content, hpath, hnames, hfile⟩ := hold hbefore
        exact ⟨text, path, place, content, rfl, hpath, hnames, hfile⟩

theorem openReport_grown {e : CommandError}
    (hrun : (openReport report).run desk = (.error e, desk')) :
    Disk.Grown none desk.work.disk desk'.work.disk := by
  cases report with
  | none => cases hrun
  | some text =>
      rw [run_openReport_some] at hrun
      rcases hopen : FileReport.open? desk.work.disk text true with ⟨e | f, disk⟩
      · rw [hopen] at hrun
        obtain ⟨-, rfl⟩ := Prod.mk.inj hrun
        exact FileReport.open?_grown hopen
      · rw [hopen] at hrun
        cases hrun

/-- What was there before and has not been lost since. -/
theorem Opened.remains {before after : Disk} {work : Workspace} (h : Opened report before work)
    (hnumbered : before.Numbered)
    (hsame : Disk.SameDirectories work.disk after) {location : Location} {entry later : Entry}
    (hget : before.get? location = some entry) (hgrows : entry.Grows work.report.serial? later) :
    Remains report before after entry later := by
  cases hgrows with
  | same => exact .same _
  | more content more hserial =>
      obtain ⟨text, path, place, content', htext, hpath, hnames, hfile⟩ :=
        h.reportsTo _ hserial (hnumbered.lt hget)
      exact .reported content more
        ⟨text, path, place, content', htext, hpath, (Disk.names_congr hsame).mp hnames, hfile⟩

end Report

section Copies

variable {form : IdentityForm} {identity : Identity} {rules : List Rule}
  {compiled : List CompiledRule} {files : List Path} {desk desk' : Desk}
  (hcheck : form.check = .ok identity)
  (hcompile : Rule.compileAll identity.mapping rules = .ok compiled)
  (happends : desk.work.report.appends)
  (hserial : ∀ serial, desk.work.report.serial? = some serial → serial < desk.work.disk.nextSerial)
include hcheck hcompile happends hserial

/-- When all files have been copied, nothing has been lost, and the copies can be put in place. -/
theorem copyAll_made {copies : List FileCopy}
    (hrun : (copyAll form rules files).run desk = (.ok copies, desk')) :
    Disk.SameDirectories desk.work.disk desk'.work.disk ∧
      Disk.Grown desk.work.report.serial? desk.work.disk desk'.work.disk ∧
      ∃ sites : List Site, copies = sites.map (·.copy) ∧
        (∀ site ∈ sites, site.copy.source ∈ files ∧
          site.Made ⟨compiled, identity.mapping, identity.pseudonym⟩ desk.work.report.serial?
            desk.work.disk desk'.work.disk) ∧
        sites.Pairwise fun a b => a.place ≠ b.temp ∧ a.temp ≠ b.temp := by
  have hcourse := copyAll_course form rules files desk
  rw [hrun] at hcourse
  cases hcourse with
  | @copied _ work hcopy =>
      obtain ⟨log, hfiles⟩ := run_copyFiles_ok hcheck hcompile files desk.work
      obtain ⟨hgrowth, sites, hsites, hmade, hclear⟩ :=
        copyEach_made (w := { desk.work with log }) (Rule.ready_of_compileAll hcompile) happends
          hserial (hfiles.symm.trans hcopy)
      obtain ⟨hsame, hclose⟩ := hgrowth.close work.disk
      exact ⟨hgrowth.directories.trans hsame, hgrowth.disk.trans hclose, sites, hsites,
        fun site hsite =>
          ⟨(hmade site hsite).1, (hmade site hsite).2.later hserial hsame hclose⟩, hclear⟩

/-- When the copying has failed, what was there is still there, or was in the way of a copy. -/
theorem copyAll_failed {e : CommandError}
    (hnormal : ∀ file ∈ files, file.Normal)
    (hrun : (copyAll form rules files).run desk = (.error e, desk')) :
    Disk.SameDirectories desk.work.disk desk'.work.disk ∧ ∀ location entry,
      desk.work.disk.get? location = some entry →
      (∃ later, desk'.work.disk.get? location = some later ∧
        entry.Grows desk.work.report.serial? later) ∨
      ∃ failure completed token source, FailsWith desk.work.report failure completed e ∧
        entry ≠ .directory ∧ source ∈ files ∧ failure.temp = some (tempPath token source) ∧
        failure.cause = .disk ⟨.exists, (tempPath token source).toText, none⟩ ∧
        desk'.work.disk.Names (tempPath token source) location ∧
        desk'.work.disk.get? location = none := by
  have hjob : Job.Ready ⟨compiled, identity.mapping, identity.pseudonym⟩ :=
    Rule.ready_of_compileAll hcompile
  obtain ⟨log, hfiles⟩ := run_copyFiles_ok hcheck hcompile files desk.work
  have hcourse := copyAll_course form rules files desk
  rw [hrun] at hcourse
  cases hcourse with
  | @failed _ _ work _ _ _ hcopy =>
      obtain ⟨hgrowth, -⟩ :=
        copyEach_growth (w := { desk.work with log }) hjob happends hserial
          (hfiles.symm.trans hcopy)
      obtain ⟨hsame, hclose⟩ := hgrowth.close work.disk
      exact ⟨hgrowth.directories.trans hsame, fun location entry hget =>
        .inl ((hgrowth.disk.trans hclose).kept location entry hget)⟩
  | @discarded failure completed _ work temp place serial content _ _ _ hcopy htemp hnames hfile
      hfails =>
      obtain ⟨hgrowth, hunfinished⟩ :=
        copyEach_growth (w := { desk.work with log }) hjob happends hserial
          (hfiles.symm.trans hcopy)
      obtain ⟨⟨token, source, hsource, rfl⟩, hcause⟩ := hunfinished failure completed temp rfl htemp
      rw [Path.ofText_toText (Path.normal_tempPath (hnormal source hsource) token)] at hnames
      have herased : Disk.SameDirectories work.disk (work.disk.erase place) :=
        Disk.sameDirectories_erase hnames.ne_nil (by simp [hfile])
      obtain ⟨hsame, hclose⟩ := hgrowth.close (work.disk.erase place)
      refine ⟨hgrowth.directories.trans (herased.trans hsame), fun location entry hget => ?_⟩
      have hget? : ∀ other, (work.disk.erase place).get? other =
          if other = place then none else work.disk.get? other :=
        fun other => Disk.get?_erase _ hnames.ne_nil
      obtain ⟨between, hbetween, hgrows⟩ := hgrowth.disk.kept location entry hget
      by_cases hplace : location = place
      · subst hplace
        obtain rfl := Option.some.inj (hbetween.symm.trans hfile)
        refine .inr ⟨failure, completed, token, source, ?_, hgrows.ne_directory, hsource, htemp,
          ?_, (Disk.names_congr (herased.trans hsame)).mp hnames,
          (Report.close_written _ _).get?_none (by rw [hget?, if_pos rfl])⟩
        · exact hfails.imp id (And.imp_left (hgrowth.serial.symm.trans ·))
        refine (hcause location ((Disk.names_congr hgrowth.directories).mpr hnames)).resolve_left ?_
        intro hnone
        cases hget.symm.trans hnone
      · obtain ⟨later, hlater, hmore⟩ := hclose.kept location between
          (by rw [hget?, if_neg hplace, hbetween])
        exact .inl ⟨later, hlater, hgrows.trans hmore⟩

end Copies

/-- What is left when the report has been written and the copies have been listed or put in place.
If standard output does not take the report, nothing has been done; nothing else can fail. -/
theorem finish_moves {fresh : Nat} {keepTemp : Bool} {sites : List Site} {desk desk' : Desk}
    {result : Except CommandError Unit}
    (hmovable : ∀ site ∈ sites, ∃ goal, Movable fresh goal desk.work.disk site)
    (hclear : sites.Pairwise fun a b => a.place ≠ b.temp ∧ a.temp ≠ b.temp)
    (hrun : (finish keepTemp (sites.map (·.copy))).run desk = (result, desk')) :
    result = written (reportOutput desk.work.report).2 ∧
      Disk.SameDirectories desk.work.disk desk'.work.disk ∧
      ∀ location, (∀ site ∈ sites, site.temp ≠ location) →
        (result = .ok ⟨⟩ ∧ keepTemp = false ∧ ∃ site ∈ sites, site.place = location ∧
          desk'.work.disk.get? location = desk.work.disk.get? site.temp) ∨
        desk'.work.disk.get? location = desk.work.disk.get? location := by
  obtain ⟨paths, disk, log, hput, hsame, -, hmoved, -⟩ :=
    putAllInPlace_moves sites desk.work hmovable hclear
  cases finished hrun with
  | unprinted hfault =>
      rw [hfault]
      exact ⟨rfl, .refl _, fun _ _ => .inr rfl⟩
  | listed hfault =>
      rw [hfault]
      exact ⟨rfl, .refl _, fun _ _ => .inr rfl⟩
  | misplaced _ _ hput' => cases hput.symm.trans hput'
  | placed hfault hkeep hput' =>
      obtain ⟨-, rfl⟩ := Prod.mk.inj (hput.symm.trans hput')
      rw [hfault]
      refine ⟨rfl, hsame, fun location htemps => ?_⟩
      exact (hmoved location htemps).imp (fun h => ⟨rfl, hkeep, h⟩) And.right

/-! ## §3 The command -/

/-- The error that a part of a command ends with. -/
def errorOf {α : Type} : Except CommandError α → Option CommandError
  | .ok _ => none
  | .error e => some e

section Command

variable {common : Common} {report : Option Text} {keepTemp : Bool} {files : List Text}

section Fate

variable {before : Disk} {rules : List Rule} {identity : Identity}
  {compiled : List CompiledRule} {desk desk' : Desk} {location : Location} {entry : Entry}
  (hcheck : common.identity.check = .ok identity)
  (hcompile : Rule.compileAll identity.mapping rules = .ok compiled)
  (hopened : Opened report before desk.work) (hnumbered : before.Numbered)
  (hget : before.get? location = some entry)
include hcheck hcompile hopened hnumbered hget

/-- The copying of the files has failed, and so has the command. -/
theorem fate_of_failed {e : CommandError}
    (hcopy : (copyAll common.identity rules (files.map Path.ofText)).run desk =
      (.error e, desk')) :
    Fate common report keepTemp files before desk'.work.disk (some e) location entry := by
  have hnormal : ∀ file ∈ files.map Path.ofText, file.Normal := by
    rw [List.forall_mem_map]
    exact fun file _ => Path.normal_ofText file
  obtain ⟨hsame, hleft⟩ :=
    copyAll_failed hcheck hcompile hopened.appends hopened.serial hnormal hcopy
  rcases hleft location entry (hopened.grown.get?_eq hget) with ⟨later, hlater, hgrows⟩ |
    ⟨failure, completed, token, source, hfails, hfile, hsource, htemp, hcause, hnames, hnone⟩
  · exact .kept (hopened.remains hnumbered hsame hget hgrows) hlater
  · obtain ⟨listed, hlisted, rfl⟩ := List.mem_map.mp hsource
    have herror : some e = some (.run (.file failure completed)) ∨
        report = none ∧ ∃ complaint, some e = some (.output complaint) :=
      hfails.imp (congrArg some) fun ⟨hmemory, complaint, he⟩ =>
        ⟨hopened.memory hmemory, complaint, congrArg some he⟩
    exact .discarded herror hfile hlisted rfl htemp hcause hnames hnone

/-- All files have been copied. What is left to do fails only if standard output does not take the
report. -/
theorem fate_of_copied {patterns : Text} {copies : List FileCopy} {last : Desk}
    {result : Except CommandError Unit} (hpatterns : common.patterns = some patterns)
    (hrules : Rule.ofFile before patterns = .ok rules)
    (hcopy : (copyAll common.identity rules (files.map Path.ofText)).run desk =
      (.ok copies, desk'))
    (hfinish : (finish keepTemp copies).run desk' = (result, last)) :
    Fate common report keepTemp files before last.work.disk (errorOf result) location entry := by
  have hstart := hopened.grown.get?_eq hget
  obtain ⟨hsame, hgrown, sites, rfl, hmade, hclear⟩ := copyAll_made hcheck hcompile hopened.appends
    hopened.serial hcopy
  have hmovable : ∀ site ∈ sites, ∃ goal,
      Movable desk.work.disk.nextSerial goal desk'.work.disk site := fun site hsite => by
    obtain ⟨text, -, hmovable, -⟩ := (hmade site hsite).2.redaction
    exact ⟨_, hmovable⟩
  obtain ⟨-, hsame', hmoved⟩ := finish_moves hmovable hclear hfinish
  have hdirectories := hsame.trans hsame'
  -- The copies are new, so none of them is what was there.
  have htemps : ∀ site ∈ sites, site.temp ≠ location := by
    rintro site hsite rfl
    cases hstart.symm.trans (hmade site hsite).2.new
  rcases hmoved location htemps with ⟨rfl, hkeep, site, hsite, rfl, hput⟩ | hput
  · obtain ⟨hsource, hsitemade⟩ := hmade site hsite
    obtain ⟨text, hwritable, hmovable, hgrows⟩ := hsitemade.redaction
    obtain ⟨serial, hbefore⟩ := hgrows entry hstart
    obtain ⟨serial', -, hcontent⟩ := hmovable.content
    obtain ⟨file, hfile, hpath⟩ := List.mem_map.mp hsource
    refine .replaced rfl hkeep hfile ?_ hpatterns hrules
      (hopened.remains hnumbered hdirectories hget hbefore)
      (redacts_of_ready hcheck hcompile hwritable) (hput.trans hcontent)
    rw [hpath]
    exact (Disk.names_congr hsame').mp hmovable.source
  · obtain ⟨later, hlater, hgrows⟩ := hgrown.kept location entry hstart
    exact .kept (hopened.remains hnumbered hdirectories hget hgrows) (hput.trans hlater)

end Fate

theorem redactFiles_fate {desk desk' : Desk} {result : Except CommandError Unit}
    (hnumbered : desk.work.disk.Numbered)
    (hrun : (redactFiles common report keepTemp files).run desk = (result, desk'))
    {location : Location} {entry : Entry} (hget : desk.work.disk.get? location = some entry) :
    Fate common report keepTemp files desk.work.disk desk'.work.disk (errorOf result) location
      entry := by
  rw [run_redactFiles_eq] at hrun
  split at hrun
  · obtain ⟨-, rfl⟩ := Prod.mk.inj hrun
    exact .kept (.same _) hget
  rename_i patterns hpatterns
  split at hrun
  · obtain ⟨-, rfl⟩ := Prod.mk.inj hrun
    exact .kept (.same _) hget
  rename_i rules hrules
  split at hrun
  · obtain ⟨-, rfl⟩ := Prod.mk.inj hrun
    exact .kept (.same _) hget
  rename_i identity hcheck
  simp only at hrun
  split at hrun
  · obtain ⟨-, rfl⟩ := Prod.mk.inj hrun
    exact .kept (.same _) hget
  rename_i compiled hcompile
  rcases hopen : (openReport report).run { desk with work :=
    { desk.work with log := desk.work.log ++ preparing identity.mapping rules } } with
    ⟨e | ⟨⟨⟩⟩, desk₁⟩
  · rw [hopen] at hrun
    obtain ⟨-, rfl⟩ := Prod.mk.inj hrun
    exact .kept (.same _) ((openReport_grown hopen).get?_eq hget)
  have hopened := openReport_opened (by exact hnumbered) hopen
  simp only [hopen] at hrun
  rcases hcopy : (copyAll common.identity rules (files.map Path.ofText)).run desk₁ with
    ⟨e | copies, desk₂⟩
  · rw [hcopy] at hrun
    obtain ⟨rfl, rfl⟩ := Prod.mk.inj hrun
    exact fate_of_failed hcheck hcompile hopened hnumbered hget hcopy
  · rw [hcopy] at hrun
    exact fate_of_copied hcheck hcompile hopened hnumbered hget hpatterns hrules hcopy hrun

/-- However the command ends, each file and directory that was there before has one of these
fates. -/
theorem redact_preserves {work : Workspace} (hnumbered : work.disk.Numbered)
    (verbose : Bool) (stamp : Text) : ∃ outcome : Outcome,
      Invocation.execute ⟨verbose, .redact common report keepTemp files⟩ stamp work = outcome ∧
      ∀ location entry, work.disk.get? location = some entry →
        Fate common report keepTemp files work.disk outcome.work.disk outcome.error location
          entry := by
  refine ⟨_, rfl, fun location entry hget => ?_⟩
  rcases hrun : (redactFiles common report keepTemp files).run
    { work := { work with log := [], report := .list [] } } with ⟨result, desk⟩
  have hfate := redactFiles_fate (by exact hnumbered) hrun hget
  rw [Invocation.execute]
  simp only [Command.execute, hrun]
  cases result with
  | ok _ => exact hfate
  | error _ => exact hfate

end Command

end Preservation

section Sample

attribute [local instance] sampleHost

theorem redact_preserves_login : loginWorkspace.disk.Numbered ∧ ∃ outcome : Outcome,
    Invocation.execute ⟨false, .redact ⟨jdoeForm, some "/rules.yaml"⟩ (some "/audit/report") false
      ["/a.log", "a.log"]⟩ "" loginWorkspace = outcome ∧
    Fate ⟨jdoeForm, some "/rules.yaml"⟩ (some "/audit/report") false ["/a.log", "a.log"]
      loginWorkspace.disk outcome.work.disk outcome.error ["a.log"]
      (.file 0 (encodeUtf8 loginText)) := by
  have hnumbered : loginWorkspace.disk.Numbered := by
    simp [Disk.Numbered, loginWorkspace]
  obtain ⟨outcome, hexecute, hfate⟩ :=
    @redact_preserves _ ⟨jdoeForm, some "/rules.yaml"⟩ (some "/audit/report") false
      ["/a.log", "a.log"] loginWorkspace hnumbered false ""
  exact ⟨hnumbered, outcome, hexecute, hfate _ _ rfl⟩

/-- The login directory with a file that has the name of the first copy. -/
def occupiedWorkspace : Workspace :=
  { loginWorkspace with disk :=
    { loginWorkspace.disk with
      entries := (["anon-7-0-a.log"], .file 2 (encodeUtf8 "precious".toList)) ::
        loginWorkspace.disk.entries
      nextSerial := 3 } }

/-- The file is none that the command has made, and it is gone. -/
theorem redact_occupied : ∃ outcome : Outcome,
    Invocation.execute ⟨false, .redact ⟨jdoeForm, some "/rules.yaml"⟩ none false ["/a.log"]⟩ ""
      occupiedWorkspace = outcome ∧ outcome.exitCode = 1 ∧
    occupiedWorkspace.disk.get? ["anon-7-0-a.log"] = some (.file 2 (encodeUtf8 "precious".toList)) ∧
    outcome.work.disk.get? ["anon-7-0-a.log"] = none := by
  refine ⟨_, rfl, by decide +kernel, rfl, by decide +kernel⟩

end Sample

end LogRedaction.CommandLine
