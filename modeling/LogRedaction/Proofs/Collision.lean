/-
LogRedaction.Proofs.Collision — no two temporary copies of a process have the same name.

A process copies files one after the other. Between two calls anything may happen: the disk, the
report and the clock that a call finds are not those that the one before it has left, and the clock
may stand still or run backwards. Only the number of the next token belongs to the process, and
`Process` says no more than that of a list of calls.

A call takes a token when its file has been opened, however it ends after that (`copyFile_temp`), so
the numbers of the tokens grow from call to call (`Process.numbers`), and the names of the copies
tell the tokens. What stands in the way of a copy has therefore been made by no other call.

## §1 One call
## §2 All calls of a process
-/
import LogRedaction.Proofs.TempCopy

namespace LogRedaction

/-! ## §1 One call -/

section Process

variable [Host]

/-- A call that copies a file, with the workspace that it finds. -/
structure Call where
  job : Job
  source : Path
  before : Workspace

namespace Call

/-- What the call returns. -/
def result (call : Call) : Except FileError FileCopy :=
  ((copyFile call.job call.source).run call.before).1

/-- The workspace that the call leaves, whether it has failed or not. -/
def after (call : Call) : Workspace := ((copyFile call.job call.source).run call.before).2

/-- The path that the call gives to its temporary copy; none if the file cannot be opened. -/
def temp? (call : Call) : Option Path := call.before.temp? call.source

/-- The call has put something where nothing was. -/
def Fills (call : Call) (location : Location) : Prop :=
  call.before.disk.get? location = none ∧ call.after.disk.get? location ≠ none

/-- The temporary copy could not be made. -/
def Refused (call : Call) (temp : Path) (refusal : DiskRefusal) : Prop :=
  call.result =
    .error (.failure ⟨call.source, some temp, .disk ⟨refusal, temp.toText, none⟩⟩)

/-- The temporary copy of a call is the one that its record or its failure tells. It is refused or
made, however the call ends, and nothing else is new on the disk. -/
structure Tells (call : Call) : Prop where
  record : ∀ copy, call.result = .ok copy → copy.temp = call.temp?
  failure : ∀ failure, call.result = .error (.failure failure) → failure.temp = call.temp?
  ends : ∀ temp, call.temp? = some temp → (∃ refusal, call.Refused temp refusal) ∨
    ∃ location, call.before.disk.Names temp location ∧ call.Fills location
  made : ∀ location, call.Fills location →
    ∃ temp, call.temp? = some temp ∧ call.before.disk.Names temp location

/-- What stands in the way of a temporary copy is there, and none of these calls has put it there:
none has a copy of that name, and none has made anything at that place. The only other way to refuse
a copy is that its name is too long. -/
def Foreign (call : Call) (temp : Path) (refusal : DiskRefusal) (others : List Call) : Prop :=
  (∀ other ∈ others, ∀ t, other.temp? = some t → t.name ≠ temp.name) ∧
    (refusal = .nameTooLong ∨ refusal = .exists ∧ ∃ location entry,
      call.before.disk.Names temp location ∧ call.before.disk.get? location = some entry ∧
        ∀ other ∈ others, ¬other.Fills location)

theorem course (call : Call) : TempCourse call.source call.before call.result call.after :=
  copyFile_temp ..

omit [Host] in
theorem name_of_temp {call : Call} {temp : Path} (h : call.temp? = some temp) :
    temp.name = tempName (call.before.tokenAt call.before.nextToken) call.source.name := by
  obtain ⟨-, -, rfl⟩ := Workspace.temp?_eq_some_iff.mp h
  exact name_tempPath ..

theorem run_eq (call : Call) :
    (copyFile call.job call.source).run call.before = (call.result, call.after) := rfl

theorem tells (call : Call) : call.Tells where
  record := fun copy hresult => temp_of_copy (hresult ▸ call.run_eq)
  failure := fun failure hresult => temp_of_failure (hresult ▸ call.run_eq)
  ends := by
    intro temp htemp
    have hcourse := call.course
    simp only [Refused, Fills]
    rw [temp?] at htemp
    generalize call.result = result, call.after = after at hcourse ⊢
    cases hcourse with
    | unopened hnone => cases htemp.symm.trans hnone
    | refused hsome =>
        obtain rfl := Option.some.inj (htemp.symm.trans hsome)
        exact .inl ⟨_, rfl⟩
    | unfinished hsome hcreate =>
        obtain rfl := Option.some.inj (htemp.symm.trans hsome)
        exact .inr (Disk.exists_created hcreate)
    | completed hsome hcreate hwritten =>
        obtain rfl := Option.some.inj (htemp.symm.trans hsome)
        obtain ⟨location, hnames, hnone, hnew⟩ := Disk.exists_created hcreate
        exact .inr ⟨location, hnames, hnone, hwritten.get?_ne_none hnew⟩
  made := by
    rintro location ⟨hnone, hsome⟩
    have hcourse := call.course
    rw [temp?]
    generalize call.result = result, call.after = after at hcourse hsome
    cases hcourse with
    | unopened => exact absurd hnone hsome
    | refused => exact absurd hnone hsome
    | unfinished htemp hcreate =>
        exact ⟨_, htemp, Disk.names_of_create hcreate hnone hsome⟩
    | completed htemp hcreate hwritten =>
        exact ⟨_, htemp, Disk.names_of_create hcreate hnone (mt hwritten.get?_none hsome)⟩

/-- Where a copy is refused something stands, unless its name is too long. -/
theorem Refused.occupied {call : Call} {temp : Path} {refusal : DiskRefusal}
    (h : call.Refused temp refusal) :
    refusal = .nameTooLong ∨ refusal = .exists ∧ ∃ location entry,
      call.before.disk.Names temp location ∧ call.before.disk.get? location = some entry := by
  have hcourse := call.course
  rw [h] at hcourse
  generalize call.after = after at hcourse
  cases hcourse with
  | unopened _ hnone => cases hnone _ rfl
  | refused htemp hcreate =>
      obtain ⟨-, ⟨content, hread⟩, rfl⟩ := Workspace.temp?_eq_some_iff.mp htemp
      obtain ⟨place, serial, hplace, -⟩ := Disk.read_eq_ok_iff.mp hread
      exact Disk.refusal_of_create_sibling hplace (tempName_ne_dots _ _) hcreate
  | unfinished _ _ hfailure =>
      exact absurd rfl ((hfailure _ rfl).2 _)

end Call

/-! ## §2 All calls of a process -/

/-- The calls of a process, the latest first, and the number of its next token. Each call takes the
number as the one before has left it, and finds whatever else there is. -/
inductive Process : List Call → Nat → Prop where
  | start (number : Nat) : Process [] number
  | call {past : List Call} {call : Call} : Process past call.before.nextToken →
      Process (call :: past) call.after.nextToken

section Run

variable {calls : List Call} {number : Nat}

/-- The next call takes the number that the calls before it have left. -/
theorem Process.next (h : Process calls number) {call : Call}
    (hnumber : call.before.nextToken = number) :
    Process (call :: calls) call.after.nextToken := by
  subst hnumber
  exact .call h

/-- The tokens that have been taken have smaller numbers than the next one. -/
theorem Process.number_lt (h : Process calls number) :
    ∀ call ∈ calls, ∀ temp, call.temp? = some temp → call.before.nextToken < number := by
  induction h with
  | start => simp
  | @call past latest _ ih =>
      intro call hcall temp htemp
      rcases List.mem_cons.mp hcall with rfl | hcall
      · exact Nat.lt_of_lt_of_eq (Nat.lt_succ_self _) (nextToken_of_temp call.job htemp).symm
      · exact Nat.lt_of_lt_of_le (ih call hcall temp htemp) (le_nextToken_copyFile ..)

/-- Each token has a greater number than those that have been taken before. -/
theorem Process.numbers (h : Process calls number) : calls.Pairwise fun later earlier =>
    ∀ temp, earlier.temp? = some temp → earlier.before.nextToken < later.before.nextToken := by
  induction h with
  | start => exact .nil
  | call hpast ih => exact .cons hpast.number_lt ih

theorem Process.names_ne (h : Process calls number) : calls.Pairwise fun later earlier =>
    ∀ s t, later.temp? = some s → earlier.temp? = some t → s.name ≠ t.name := by
  refine h.numbers.imp ?_
  intro later earlier hlt s t hs ht hname
  rw [Call.name_of_temp hs, Call.name_of_temp ht] at hname
  have hnumber := congrArg Token.number (tempName_inj hname).1
  exact absurd hnumber (Nat.ne_of_gt (hlt t ht))

/-- A copy is refused because of something that no other call has made, or because of its name. -/
theorem Process.foreign (h : Process calls number) {later earlier : List Call} {call : Call}
    (hcalls : calls = later ++ call :: earlier) {temp : Path} {refusal : DiskRefusal}
    (hrefused : call.Refused temp refusal) : call.Foreign temp refusal (later ++ earlier) := by
  have htemp : call.temp? = some temp := (call.tells.failure _ hrefused).symm
  obtain ⟨-, hearlier, hlater⟩ := List.pairwise_append.mp (hcalls ▸ h.names_ne)
  have hnames : ∀ other ∈ later ++ earlier, ∀ t, other.temp? = some t → t.name ≠ temp.name := by
    intro other hother t ht
    rcases List.mem_append.mp hother with hother | hother
    · exact hlater other hother call (List.mem_cons_self ..) t temp ht htemp
    · exact ((List.pairwise_cons.mp hearlier).1 other hother temp t htemp ht).symm
  refine ⟨hnames, hrefused.occupied.imp_right ?_⟩
  rintro ⟨hexists, location, entry, hlocation, hentry⟩
  refine ⟨hexists, location, entry, hlocation, hentry, fun other hother hfills => ?_⟩
  -- A copy at the same place would have the same name.
  obtain ⟨t, ht, hplace⟩ := other.tells.made location hfills
  have hsame := (Disk.getLast?_of_names hplace).symm.trans (Disk.getLast?_of_names hlocation)
  exact hnames other hother t ht (Option.some.inj hsame)

/-- Whatever files a process copies, and whatever the clock says, the temporary copies have different
names: a path tells the directory, the time, the number of the token and the name of the source. No
copy is its own source. If one is refused although its name is not too long, then something has the
name that no other call has made. -/
theorem temps_never_collide (h : Process calls number) :
    (calls.Pairwise fun later earlier =>
      ∀ s t, later.temp? = some s → earlier.temp? = some t → s.name ≠ t.name) ∧
    (∀ call ∈ calls, call.Tells) ∧
    (∀ (time time' : Int) (n n' : Nat) (source source' : Path),
      tempPath ⟨time, n⟩ source = tempPath ⟨time', n'⟩ source' ↔
        source.parent = source'.parent ∧ time = time' ∧ n = n' ∧ source.name = source'.name) ∧
    (∀ token source, tempPath token source ≠ source) ∧
    ∀ later call earlier temp refusal, calls = later ++ call :: earlier →
      call.Refused temp refusal → call.Foreign temp refusal (later ++ earlier) := by
  refine ⟨h.names_ne, fun call _ => call.tells, ?_, tempPath_ne_source,
    fun later call earlier temp refusal hcalls hrefused => h.foreign hcalls hrefused⟩
  intro time time' n n' source source'
  rw [tempPath_eq_iff, Token.mk.injEq, and_assoc]

end Run

end Process

section Sample

attribute [local instance] sampleHost

/-- The log is copied. Then its copy is, with the clock put back to before the time from which is
counted. When the log is copied again, somebody else's file has the name of the copy. -/
theorem temps_never_collide_login : ∃ first second third : Call,
    Process [third, second, first] third.after.nextToken ∧
    first.temp? = some (tempPath ⟨7, 0⟩ loginLog) ∧ second.source = tempPath ⟨7, 0⟩ loginLog ∧
    second.temp? = some (tempPath ⟨-8, 1⟩ second.source) ∧
    third.Refused (tempPath ⟨7, 2⟩ loginLog) .exists ∧
    third.Foreign (tempPath ⟨7, 2⟩ loginLog) .exists [second, first] := by
  let job : Job := ⟨[], jdoe.mapping, jdoe.pseudonym⟩
  let first : Call := ⟨job, loginLog, loginWorkspace⟩
  let second : Call := ⟨job, tempPath ⟨7, 0⟩ loginLog, { first.after with clock := fun _ => -8 }⟩
  let third : Call := ⟨job, loginLog, { second.after with
    disk := second.after.disk.putNew ["anon-7-2-a.log"] []
    clock := fun _ => 7 }⟩
  have hprocess : Process [third, second, first] third.after.nextToken :=
    (((Process.start 0).next rfl).next (by decide +kernel)).next (by decide +kernel)
  have hrefused : third.Refused (tempPath ⟨7, 2⟩ loginLog) .exists := by
    rw [Call.Refused]
    decide +kernel
  obtain ⟨-, -, -, -, hforeign⟩ := temps_never_collide hprocess
  exact ⟨first, second, third, hprocess, by decide +kernel, rfl, by decide +kernel, hrefused,
    hforeign [] third [second, first] _ _ rfl hrefused⟩

end Sample

end LogRedaction
