import PyVpn.EventRun
import PyVpn.Python

/-! Giving up root, as `privileges.py` does: groups first, the user id last. -/
namespace PyVpn
open EventRun

structure Passwd where
  uid : Nat
  gid : Nat
  dir : String

structure UserDb where
  user : String → Option Passwd
  group : String → Option Nat

structure Credentials where
  uid : Nat
  gid : Nat
  groups : List Nat
  environ : Dict String String

structure DropFaults where
  setgroups : Bool := false
  setgid : Bool := false
  setuid : Bool := false

def isRoot (self : Credentials) : Bool := self.uid == 0

/-- A system call that is refused with `OSError`, or writes. -/
def systemCall (refused : Bool) (write : Credentials → Credentials) : Py Credentials Unit :=
  if refused then Py.raise .osError else Py.assign write

/-- The group to drop to: the one that was named, else the user's own. -/
def dropGroup (db : UserDb) (pw : Passwd) (groupname : Option String) : Except PyError Nat :=
  match groupname with
  | none => .ok pw.gid
  | some name =>
    match db.group name with
    | none => .error .valueError
    | some gid => .ok gid

def dropPrivileges (db : UserDb) (faults : DropFaults) (username : String)
    (groupname : Option String) : Py Credentials Unit := do
  let self ← Py.self
  if !isRoot self then return ()
  else
    match db.user username with
    | none => Py.raise .valueError
    | some pw => do
      let gid ← Py.ofExcept (dropGroup db pw groupname)
      Py.tryExcept (systemCall faults.setgroups fun self => { self with groups := [] })
        (return ())
      systemCall faults.setgid fun self => { self with gid := gid }
      systemCall faults.setuid fun self => { self with uid := pw.uid }
      Py.assign fun self => if pw.dir ≠ "" then
        { self with environ := self.environ.insert "HOME" pw.dir } else self
      Py.assign fun self => { self with environ := self.environ.insert "USER" username }

def maybeDropPrivileges (db : UserDb) (faults : DropFaults) (username : Option String) :
    Py Credentials Unit :=
  if !truthy username then return () else dropPrivileges db faults (username.getD "") none

/-- A call of `drop_privileges`: the databases as they are then, and what is refused. -/
structure DropCall where
  db : UserDb
  faults : DropFaults
  username : String
  groupname : Option String

def dropStep (self : Credentials) (call : DropCall) : Credentials :=
  (dropPrivileges call.db call.faults call.username call.groupname self).2

/-- The environment of the user: whoever has no home directory keeps the one that was there. -/
def environOf (pw : Passwd) (username : String) (environ : Dict String String) :
    Dict String String :=
  (if pw.dir ≠ "" then environ.insert "HOME" pw.dir else environ).insert "USER" username

theorem environOf_user (pw : Passwd) (username : String) (environ : Dict String String) :
    (environOf pw username environ).lookup "USER" = some username := AList.lookup_insert _

theorem environOf_home (pw : Passwd) (username : String) (environ : Dict String String) :
    (environOf pw username environ).lookup "HOME" =
      if pw.dir ≠ "" then some pw.dir else environ.lookup "HOME" := by
  rw [environOf, AList.lookup_insert_ne (by decide)]
  split
  · exact AList.lookup_insert _
  · rfl

theorem environOf_other (pw : Passwd) (username : String) (environ : Dict String String)
    {name : String} (hhome : name ≠ "HOME") (huser : name ≠ "USER") :
    (environOf pw username environ).lookup name = environ.lookup name := by
  rw [environOf, AList.lookup_insert_ne huser]
  split
  · exact AList.lookup_insert_ne hhome
  · rfl

/-- What one call can make of the process: nothing, less than root's groups, or the user. -/
inductive Dropped (call : DropCall) (self : Credentials) :
    Except PyError Unit → Credentials → Prop
  | skipped (hroot : self.uid ≠ 0) : Dropped call self (.ok ()) self
  | unknown (hroot : self.uid = 0)
      (hunknown : ∀ pw gid, call.db.user call.username = some pw →
        dropGroup call.db pw call.groupname ≠ .ok gid) : Dropped call self (.error .valueError) self
  | refused (pw : Passwd) (gid gid' : Nat) (groups : List Nat) (hroot : self.uid = 0)
      (huser : call.db.user call.username = some pw)
      (hgroup : dropGroup call.db pw call.groupname = .ok gid)
      (hrefused : call.faults.setgid = true ∧ gid' = self.gid ∨
        call.faults.setuid = true ∧ gid' = gid) :
      Dropped call self (.error .osError) { self with gid := gid', groups := groups }
  | changed (pw : Passwd) (gid : Nat) (groups : List Nat)
      (hroot : self.uid = 0) (huser : call.db.user call.username = some pw)
      (hgroup : dropGroup call.db pw call.groupname = .ok gid)
      (hallowed : call.faults.setgid = false ∧ call.faults.setuid = false)
      (hgroups : groups = if call.faults.setgroups then self.groups else []) :
      Dropped call self (.ok ()) ⟨pw.uid, gid, groups, environOf pw call.username self.environ⟩

theorem dropPrivileges_cases (call : DropCall) (self : Credentials) :
    Dropped call self
      (dropPrivileges call.db call.faults call.username call.groupname self).1
      (dropStep self call) := by
  unfold dropStep dropPrivileges
  rw [Py.bind_run]
  simp only [Py.self_run]
  by_cases hroot : self.uid = 0
  · have hisRoot : (!isRoot self) = false := by simp [isRoot, hroot]
    simp only [hisRoot, Bool.false_eq_true, if_false]
    cases huser : call.db.user call.username with
    | none =>
      refine .unknown hroot fun pw gid hsome => ?_
      rw [huser] at hsome
      cases hsome
    | some pw =>
      cases hgroup : dropGroup call.db pw call.groupname with
      | error e =>
        have he : e = .valueError := by
          unfold dropGroup at hgroup
          split at hgroup
          · cases hgroup
          · split at hgroup
            · exact (Except.error.inj hgroup).symm
            · cases hgroup
        subst he
        simp only [Py.bind_run, Py.ofExcept_run, hgroup]
        refine .unknown hroot fun pw' gid hsome hok => ?_
        cases huser.symm.trans hsome
        cases hgroup.symm.trans hok
      | ok gid =>
        have hcleared : Py.tryExcept (systemCall call.faults.setgroups
            fun self => { self with groups := [] }) (return ()) self =
              (.ok (), { self with
                groups := if call.faults.setgroups then self.groups else [] }) := by
          cases call.faults.setgroups with
          | false => rfl
          | true => rfl
        simp only [Py.bind_run, Py.ofExcept_run, hgroup, hcleared]
        cases hgid : call.faults.setgid with
        | true => exact .refused pw gid self.gid _ hroot huser hgroup (.inl ⟨hgid, rfl⟩)
        | false =>
          cases huid : call.faults.setuid with
          | true => exact .refused pw gid gid _ hroot huser hgroup (.inr ⟨huid, rfl⟩)
          | false =>
            simp only [systemCall, Bool.false_eq_true, if_false, Py.assign_run]
            have hchanged := Dropped.changed pw gid _ hroot huser hgroup ⟨hgid, huid⟩ rfl
            unfold environOf at hchanged
            by_cases hdir : pw.dir ≠ ""
            · rw [if_pos hdir]
              rwa [if_pos hdir] at hchanged
            · rw [if_neg hdir]
              rwa [if_neg hdir] at hchanged
  · have hisRoot : (!isRoot self) = true := by simp [isRoot, hroot]
    simp only [hisRoot, if_true]
    exact .skipped hroot

theorem dropStep_frozen {self : Credentials} (h : self.uid ≠ 0) (call : DropCall) :
    dropStep self call = self := by
  have hcases := dropPrivileges_cases call self
  generalize dropStep self call = self' at hcases
  generalize (dropPrivileges call.db call.faults call.username call.groupname self).1 = r at hcases
  cases hcases with
  | skipped _ => rfl
  | unknown hroot _ => exact absurd hroot h
  | refused pw gid gid' groups hroot _ _ _ => exact absurd hroot h
  | changed pw gid groups hroot _ _ _ _ => exact absurd hroot h

theorem dropRun_frozen {self : Credentials} (h : self.uid ≠ 0) (calls : List DropCall) :
    run dropStep calls self = self := by
  induction calls with
  | nil => rfl
  | cons call calls ih => rw [run_cons, dropStep_frozen h, ih]

/-- What the process was has become the user of this call: both ids, the groups gone where they
could be cleared, `HOME` where the user has one, `USER`, and nothing else of the environment. -/
structure DroppedBy (call : DropCall) (was self : Credentials) : Prop where
  user : ∃ pw, call.db.user call.username = some pw ∧ self.uid = pw.uid ∧
    dropGroup call.db pw call.groupname = .ok self.gid ∧
    self.environ.lookup "HOME" = if pw.dir ≠ "" then some pw.dir else was.environ.lookup "HOME"
  named : self.environ.lookup "USER" = some call.username
  environ : ∀ name, name ≠ "HOME" → name ≠ "USER" →
    self.environ.lookup name = was.environ.lookup name
  groups : self.groups = if call.faults.setgroups then was.groups else []

/-- A process that starts as root is root or has become, in full, the user of one of its calls,
after whatever calls and refusals; once it is not root no call changes it. -/
theorem root_or_dropped (calls : List DropCall) {self : Credentials} (hroot : self.uid = 0) :
    (run dropStep calls self).uid = 0 ∨
      ∃ before call after, calls = before ++ call :: after ∧
        DroppedBy call (run dropStep before self) (run dropStep calls self) ∧
        run dropStep calls self = run dropStep (before ++ [call]) self := by
  induction calls generalizing self with
  | nil => exact .inl hroot
  | cons call calls ih =>
    have hlater {next : Credentials} (hnext : dropStep self call = next) (hstill : next.uid = 0) :
        (run dropStep (call :: calls) self).uid = 0 ∨
          ∃ before first after, call :: calls = before ++ first :: after ∧
            DroppedBy first (run dropStep before self) (run dropStep (call :: calls) self) ∧
            run dropStep (call :: calls) self = run dropStep (before ++ [first]) self := by
      rw [run_cons, hnext]
      obtain hzero | ⟨before, first, after, hsplit, hdropped, hrun⟩ := ih hstill
      · exact .inl hzero
      · refine .inr ⟨call :: before, first, after, congrArg (call :: ·) hsplit, ?_, ?_⟩
        · rw [run_cons, hnext]
          exact hdropped
        · rw [List.cons_append, run_cons, hnext]
          exact hrun
    have hcases := dropPrivileges_cases call self
    generalize hnext : dropStep self call = next at hcases
    generalize (dropPrivileges call.db call.faults call.username call.groupname self).1 = r at hcases
    cases hcases with
    | skipped hne => exact absurd hroot hne
    | unknown _ _ => exact hlater hnext hroot
    | refused pw gid gid' groups _ _ _ _ => exact hlater hnext hroot
    | changed pw gid groups _ huser hgroup _ hgroups =>
      by_cases hzero : pw.uid = 0
      · exact hlater hnext hzero
      · have hfrozen : run dropStep (call :: calls) self =
            ⟨pw.uid, gid, groups, environOf pw call.username self.environ⟩ := by
          rw [run_cons, hnext]
          exact dropRun_frozen hzero calls
        have hdropped : DroppedBy call self
            ⟨pw.uid, gid, groups, environOf pw call.username self.environ⟩ :=
          { user := ⟨pw, huser, rfl, hgroup, environOf_home pw call.username self.environ⟩
            named := environOf_user pw call.username self.environ
            environ := fun _ hhome hname => environOf_other pw call.username self.environ hhome hname
            groups := hgroups }
        refine .inr ⟨[], call, calls, rfl, ?_, ?_⟩
        · rw [hfrozen]
          exact hdropped
        · rw [hfrozen, List.nil_append, run_cons, hnext]
          rfl

def nobodyDb : UserDb :=
  ⟨fun name => if name = "nobody" then some ⟨65534, 65534, "/"⟩ else none, fun _ => none⟩

def dropTo (username : String) : DropCall := ⟨nobodyDb, {}, username, none⟩

def rootProcess : Credentials :=
  ⟨0, 0, [0], ((AList.insert "PATH" "/bin" ∅).insert "HOME" "/root").insert "USER" "root"⟩

/-- Root drops to a user there is not, to one there is, and again. -/
def nobodyCalls : List DropCall := [dropTo "ghost", dropTo "nobody", dropTo "nobody"]

theorem root_or_dropped_nobody :
    (run dropStep nobodyCalls rootProcess).uid = 65534 ∧
    ((run dropStep nobodyCalls rootProcess).uid = 0 ∨
      ∃ before call after, nobodyCalls = before ++ call :: after ∧
        DroppedBy call (run dropStep before rootProcess) (run dropStep nobodyCalls rootProcess) ∧
        run dropStep nobodyCalls rootProcess = run dropStep (before ++ [call]) rootProcess) :=
  ⟨by decide, root_or_dropped nobodyCalls rfl⟩

end PyVpn
