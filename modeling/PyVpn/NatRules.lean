import PyVpn.ServerResources

/-! The NAT rules of a host over any number of server lives. `setup_nat` adds a rule whether
or not it is there, and `_cleanup` takes away one as root only. -/
namespace PyVpn
open EventRun
variable {P : Primitives}

theorem Host.deleteRule_process (rule : NatRule) (host : Host) :
    (host.deleteRule rule).process = host.process := by
  unfold Host.deleteRule
  split
  · rfl
  · rfl

theorem Host.deleteRule_perm {rule : NatRule} {host : Host} {rules : List NatRule}
    (hrules : host.rules = rules ++ [rule]) :
    ((host.deleteRule rule).rules).Perm
      (rules ++ if isRoot host.process then [] else [rule]) := by
  unfold Host.deleteRule
  cases hroot : isRoot host.process with
  | false => simpa [hroot] using List.Perm.of_eq hrules
  | true =>
    have hmem : rule ∈ host.rules := by simp [hrules]
    have hback : (rule :: host.rules.erase rule).Perm (rule :: rules) :=
      (List.perm_cons_erase hmem).symm.trans
        ((List.Perm.of_eq hrules).trans List.perm_append_comm)
    simpa [hroot] using hback.cons_inv

namespace ServerLife

def withRules (rules : List NatRule) (life : ServerLife P) : ServerLife P :=
  { life with host := { life.host with rules := rules ++ life.host.rules } }

def forgetRules (life : ServerLife P) : ServerLife P :=
  { life with host := { life.host with rules := [] } }

theorem withRules_forget (life : ServerLife P) :
    withRules life.host.rules life.forgetRules = life := by
  simp only [withRules, forgetRules, List.append_nil]

section Start
variable (rules : List NatRule)

theorem setIp_blind (faults : StartFaults) (cidr : String) :
    Py.Blind (withRules rules) (setIp (P := P) faults cidr) :=
  Py.Blind.self (fun _ => rfl) fun _ =>
    Py.Blind.ite ((Py.Blind.pure ()).bind fun _ => Py.Blind.raiseFault _) (fun _ => rfl)

theorem setupNat_blind (faults : StartFaults) (rule : NatRule) :
    Py.Blind (withRules rules) (setupNat (P := P) faults rule) := by
  have happend (life : ServerLife P) :
      { withRules rules life with host := (withRules rules life).host.appendRule rule } =
        withRules rules { life with host := life.host.appendRule rule } := by
    unfold Host.appendRule withRules
    cases hroot : isRoot life.host.process with
    | false => simp
    | true => simp
  refine Py.Blind.self (fun _ => rfl) fun life => Py.Blind.ite (fun _ => rfl) ?_
  refine Py.Blind.bind (Py.Blind.raiseFault faults.appendRule) fun _ life => ?_
  simp only [Py.assign_run, happend]

theorem startNat_blind (faults : StartFaults) (interface : Option String) :
    Py.Blind (withRules rules) (startNat (P := P) faults interface) := by
  refine Py.Blind.ite (Py.Blind.tryExcept ?_ (Py.Blind.pure ())) (Py.Blind.pure ())
  refine Py.Blind.self (fun _ => rfl) fun life => ?_
  exact Py.Blind.bind (setupNat_blind rules faults _) fun _ _ => rfl

theorem giveUpRoot_blind (faults : StartFaults) :
    Py.Blind (withRules rules) (giveUpRoot (P := P) faults) :=
  Py.Blind.self (fun _ => rfl) fun _ => Py.Blind.assign (fun _ => rfl) fun _ => Py.Blind.ofExcept _

/-- No step of the start looks at the rules that are there. -/
theorem start_blind (faults : StartFaults) :
    Py.Blind (withRules rules) (start (P := P) faults) := by
  have htun : Py.Blind (withRules rules) (startTun (P := P) faults) :=
    Py.Blind.self (fun _ => rfl) fun _ =>
      Py.Blind.bind (Py.Blind.ofExcept _) fun _ =>
      Py.Blind.bind (Py.Blind.raiseFault faults.openTun) fun _ =>
      Py.Blind.assign (fun _ => rfl) fun _ =>
      Py.Blind.bind (setIp_blind rules faults _) fun _ =>
      Py.Blind.bind (Py.Blind.raiseFault faults.setMtu) fun _ =>
      Py.Blind.bind (Py.Blind.raiseFault faults.addRoute) fun _ _ => rfl
  have hnet : Py.Blind (withRules rules) (startNet (P := P) faults) :=
    Py.Blind.bind (Py.Blind.ofExcept _) fun interface =>
      Py.Blind.bind (startNat_blind rules faults interface) fun _ =>
      Py.Blind.bind (giveUpRoot_blind rules faults) fun _ =>
      Py.Blind.bind (Py.Blind.raiseFault faults.listen) fun _ _ => rfl
  exact Py.Blind.bind htun fun _ => hnet

end Start

theorem forget_step (life : ServerLife P) (e : ServerLifeEvent P) :
    (serverLifeStep life e).forgetRules = (serverLifeStep life.forgetRules e).forgetRules := by
  have hleave : life.leave.forgetRules = life.forgetRules.leave.forgetRules := by
    rw [leave_run, leave_run]
    cases h : truthy life.natInterface with
    | false => simp only [forgetRules, h, Bool.false_eq_true, if_false]
    | true => simp only [forgetRules, h, if_true, Host.deleteRule_process]
  have hphase : life.forgetRules.phase = life.phase := rfl
  have hrunning : life.forgetRules.running = life.running := rfl
  unfold serverLifeStep
  rw [hphase, hrunning]
  cases life.phase with
  | fresh =>
    cases e with
    | start faults =>
      have hstart := start_blind life.host.rules faults life.forgetRules
      rw [withRules_forget] at hstart
      simp only [hstart]
      cases (start faults life.forgetRules).1 with
      | ok u => rfl
      | error e => rfl
    | callback e => rfl
    | test => rfl
    | stop => rfl
    | raised => rfl
  | ready =>
    cases e with
    | start faults => rfl
    | callback e => rfl
    | test =>
      cases life.running with
      | true => rfl
      | false => exact hleave
    | stop => rfl
    | raised => exact hleave
  | finished => rfl

theorem forget_run (events : List (ServerLifeEvent P)) (life life' : ServerLife P)
    (h : life.forgetRules = life'.forgetRules) :
    (run serverLifeStep events life).forgetRules =
      (run serverLifeStep events life').forgetRules := by
  induction events generalizing life life' with
  | nil => exact h
  | cons e events ih =>
    rw [run_cons, run_cons]
    exact ih _ _ (by rw [forget_step, h, ← forget_step])

end ServerLife

structure Boot (P : Primitives) where
  config : Config
  process : Credentials
  faults : StartFaults
  events : List (ServerLifeEvent P)

namespace Boot

def first (boot : Boot P) (rules : List NatRule) : Except PyError (ServerLife P) :=
  ServerLife.new boot.config ⟨boot.process, rules⟩

def last (boot : Boot P) (first : ServerLife P) : ServerLife P :=
  run serverLifeStep (.start boot.faults :: boot.events) first

def started (boot : Boot P) (first : ServerLife P) : Except PyError Unit × ServerLife P :=
  ServerLife.start boot.faults first

end Boot

def bootStep (rules : List NatRule) (boot : Boot P) : List NatRule :=
  match boot.first rules with
  | .error _ => rules
  | .ok first => (boot.last first).host.rules

/-- The rule that is still there after the life: the start failed once it was added, the
process died in the loop, or it was not root any more when the loop was over. -/
def leftBy (boot : Boot P) : List NatRule :=
  match boot.first [] with
  | .error _ => []
  | .ok first =>
    if (boot.started first).1 = .ok () ∧ (boot.last first).phase = .finished ∧
      isRoot (boot.last first).host.process then []
    else (boot.started first).2.ownRule

section Perm
variable {boot : Boot P} {first : ServerLife P} (rules : List NatRule)

theorem Boot.first_withRules (boot : Boot P) :
    boot.first rules = (boot.first []).map (ServerLife.withRules rules) := by
  unfold Boot.first ServerLife.new
  cases VpnServer.new (P := P) boot.config with
  | error e => rfl
  | ok server =>
    simp only [Bind.bind, Except.bind, Pure.pure, Except.pure, Except.map, ServerLife.withRules,
      List.append_nil]

/-- The rules at the end of a life, by the way it ended. -/
theorem lastRules_perm {host : Host} (hnew : ServerLife.new boot.config host = .ok first) :
    ((boot.last first).host.rules).Perm (host.rules ++
      if (boot.started first).1 = .ok () ∧ (boot.last first).phase = .finished ∧
        isRoot (boot.last first).host.process then []
      else (boot.started first).2.ownRule) := by
  have hstart := start_outcome hnew boot.faults
  obtain ⟨⟨e, he⟩, hrun⟩ | ⟨hok, hrun | ⟨last, hlast, hrun⟩⟩ :=
    life_cases hnew boot.faults boot.events
  · have hrefused : (boot.started first).1 ≠ .ok () := by
      rw [Boot.started, he]
      exact (nomatch ·)
    rw [if_neg (fun h => hrefused h.1), Boot.last, hrun]
    exact List.Perm.of_eq hstart.rules
  · have hloop : (boot.last first).phase ≠ .finished := by
      rw [Boot.last, hrun.phase]
      decide
    rw [if_neg (fun h => hloop h.2.1), Boot.last, hrun.host]
    exact List.Perm.of_eq hstart.rules
  · have hfinished : (boot.last first).phase = .finished := by
      rw [Boot.last, hrun]
      rfl
    have hrules := hstart.rules
    have hhost : (boot.last first).host = if truthy last.natInterface then
        last.host.deleteRule ⟨last.server.config.serverNetwork, last.natInterface.getD ""⟩
      else last.host := by
      rw [Boot.last, hrun, ServerLife.leave_run]
    rw [hlast.natInterface, hlast.host, hlast.config] at hhost
    cases hnat : (ServerLife.start boot.faults first).2.natInterface with
    | none =>
      have hnone : (boot.started first).2.ownRule = [] := by
        rw [Boot.started, ServerLife.ownRule, hnat]
        rfl
      rw [ServerLife.ownRule, hnat] at hrules
      rw [hnat] at hhost
      rw [hnone, ite_self, hhost]
      exact List.Perm.of_eq hrules
    | some name =>
      have htruthy : truthy (some name) = true := by
        simpa [truthy] using hstart.named name hnat
      have hown : (boot.started first).2.ownRule =
          [⟨(ServerLife.start boot.faults first).2.server.config.serverNetwork, name⟩] := by
        rw [Boot.started, ServerLife.ownRule, hnat]
        rfl
      rw [Boot.started] at hown
      rw [hown] at hrules
      rw [hnat, if_pos htruthy] at hhost
      have hdeleted := Host.deleteRule_perm hrules
      have hok' : (boot.started first).1 = .ok () := hok
      rw [hhost, Host.deleteRule_process, Boot.started, hown]
      simpa [hok, hfinished] using hdeleted

end Perm

theorem bootStep_perm (rules : List NatRule) (boot : Boot P) :
    (bootStep rules boot).Perm (rules ++ leftBy boot) := by
  unfold bootStep leftBy
  have hfirst := boot.first_withRules rules
  cases hempty : boot.first [] with
  | error e =>
    rw [hempty] at hfirst
    rw [hfirst]
    exact List.Perm.of_eq (List.append_nil _).symm
  | ok first =>
    rw [hempty] at hfirst
    rw [hfirst]
    have hperm := lastRules_perm hfirst
    have hforget : (boot.last (ServerLife.withRules rules first)).forgetRules =
        (boot.last first).forgetRules :=
      ServerLife.forget_run _ (ServerLife.withRules rules first) first rfl
    have hphase : (boot.last (ServerLife.withRules rules first)).phase = (boot.last first).phase :=
      (ServerLife.mk.inj hforget).2.1
    have hhost := (ServerLife.mk.inj hforget).2.2.2.2.2.2.1
    have hprocess : (boot.last (ServerLife.withRules rules first)).host.process =
        (boot.last first).host.process := (Host.mk.inj hhost).1
    have hstarted : boot.started (ServerLife.withRules rules first) =
        ((boot.started first).1, ServerLife.withRules rules (boot.started first).2) :=
      ServerLife.start_blind rules boot.faults first
    rw [hphase, hprocess, hstarted] at hperm
    exact hperm

/-- Over any number of lives the host keeps its rules, and those that lives left behind. -/
theorem nat_rules_over_boots (boots : List (Boot P)) (rules : List NatRule) :
    (run bootStep boots rules).Perm (rules ++ boots.flatMap leftBy) := by
  induction boots generalizing rules with
  | nil => simp
  | cons boot boots ih =>
    rw [run_cons, List.flatMap_cons, ← List.append_assoc]
    exact (ih (bootStep rules boot)).trans ((bootStep_perm rules boot).append_right _)

end PyVpn
