import Simbus.Axi4.SlaveEdge

/-!
# Invariants of the slave

What sampling, a reset and a clock edge keep holds whenever the slave waits,
and the slave never returns.
-/

namespace Simbus.Axi4

open FourValued Clocked

section

variable {User : Type}

theorem start_axi4sReadyCommand (bus : SimbusAxi4 User) :
    (axi4sReadyCommand : SlaveCode User Int).start bus =
      .await bus fun
        | .finish => .finish simbusAxi4Finished bus
        | .until aclk text =>
            if SimbusAxi4.HasLengths
                (SimbusAxi4.masterLength bus.widths) text then
              .finish 0 (bus.sampleSlave aclk text)
            else
              .fail bus := by
  simp only [axi4sReadyCommand, Program.start_exchange]
  congr 1
  funext reply
  cases reply with
  | finish =>
      rfl
  | «until» aclk text =>
      simp only [Program.start_bind, Program.start_assert, decide_eq_true_eq]
      split <;> rfl

/-- An assertion about a slave that its steps keep. -/
structure SlaveInvariant (holds : SimbusAxi4 User → Prop) : Prop where
  sampled : ∀ bus aclk text,
    holds bus → holds (bus.sampleSlave aclk text)
  reset : ∀ bus, holds bus → holds (reset bus)
  edge : ∀ bus next, holds bus → slaveMachine bus = some next →
    holds (next.finish.recordEdge bus.toAxi4Signals next.calls)
  stuck : ∀ bus, holds bus → slaveMachine bus = none →
    holds (bus.recordEdge bus.toAxi4Signals [])

variable {holds : SimbusAxi4 User → Prop}
variable {allowed : SlaveReply → Prop}

/-- The logic in which a slave always satisfies an assertion. -/
abbrev always
    (allowed : SlaveReply → Prop)
    (holds : SimbusAxi4 User → Prop) :
    Logic (SimbusAxi4 User) SlaveReply :=
  safetyOn allowed holds holds

namespace SlaveInvariant

theorem readyCommand (invariant : SlaveInvariant holds) :
    (always allowed holds).Keeps (fun _ => holds) axi4sReadyCommand := by
  intro step bus before
  rw [start_axi4sReadyCommand]
  refine safe_await.mpr ⟨before, fun reply _ => ?_⟩
  cases reply with
  | finish =>
      exact safe_finish.mpr ⟨step, before⟩
  | «until» aclk text =>
      simp only
      split
      · exact safe_finish.mpr ⟨step, invariant.sampled bus aclk text before⟩
      · exact safe_fail.mpr before

theorem awaitClock
    (invariant : SlaveInvariant holds)
    (level : Logic4) :
    (always allowed holds).Keeps (fun _ => holds) (awaitClock level) := by
  refine Logic.Triple.weaken
    (safety_whileDo (fun _ => holds) (fun _ _ => id) ?_)
    (fun _ _ => id) fun _ _ _ reached => reached.1
  exact Logic.Triple.bind
    (invariant.readyCommand.weaken (fun _ _ before => before.1)
      fun _ _ _ => id)
    fun _ => .pure fun _ _ => id

theorem doReset (invariant : SlaveInvariant holds) :
    (always allowed holds).Keeps (fun _ => holds) doReset :=
  .modifyState fun _ bus before => invariant.reset bus before

theorem doSlaveMachine (invariant : SlaveInvariant holds) :
    (always allowed holds).Keeps (fun _ => holds) doSlaveMachine := by
  intro step bus before
  simp only [Axi4.doSlaveMachine]
  split
  · rename_i stuck
    exact safe_fail.mpr (invariant.stuck bus before stuck)
  · rename_i next ran
    exact safe_finish.mpr ⟨step, invariant.edge bus next before ran⟩

theorem afterFall (invariant : SlaveInvariant holds) :
    (always allowed holds).Keeps (fun _ => holds) afterFall :=
  .getState fun _ => .ite invariant.doReset (.pure ())

theorem afterRise (invariant : SlaveInvariant holds) :
    (always allowed holds).Keeps (fun _ => holds) afterRise :=
  .getState fun _ => .ite invariant.doReset invariant.doSlaveMachine

theorem slaveTurn (invariant : SlaveInvariant holds) :
    (always allowed holds).Triple (fun _ => holds) (slaveTurn ())
      (TurnPost (fun _ _ => holds) fun _ _ _ => False) := by
  refine .bind (invariant.awaitClock .zero) fun _ => ?_
  refine .bind invariant.afterFall fun _ => ?_
  refine .bind (invariant.awaitClock .one) fun _ => ?_
  refine .bind invariant.afterRise fun _ => ?_
  exact .pure fun _ _ => id

/-- The invariant holds as long as the loop runs, which is for ever. -/
theorem slaveLoop
    (invariant : SlaveInvariant holds)
    {bus : SimbusAxi4 User}
    (start : holds bus) :
    Safe allowed holds holds (fun _ _ => False)
      ((Program.loop Axi4.slaveTurn ()).start bus) := by
  have loops : (always allowed holds).Triple (fun _ => holds)
      (Program.loop Axi4.slaveTurn ()) fun _ _ _ => False :=
    safety_loop (fun _ _ => holds) (fun _ _ _ => id)
      (fun _ => invariant.slaveTurn) ()
  have runs := loops 0 bus start
  rw [← Behavior.bind_finish ((Program.loop Axi4.slaveTurn ()).start _)]
  exact Safe.bind runs fun _ _ ⟨_, impossible⟩ => impossible.elim

/-- The invariant holds as long as the slave runs. -/
theorem simbusAxi4Slave
    (invariant : SlaveInvariant holds)
    {dev : SlaveDevice User}
    {bus : SimbusAxi4 User}
    (free : bus.device = none)
    (start : holds { bus with device := some dev }) :
    Safe allowed holds holds (fun _ _ => False)
      ((simbusAxi4Slave dev).start bus) := by
  simp only [Axi4.simbusAxi4Slave, Program.start_bind, Program.start_assert,
    free, Option.isNone_none, ↓reduceIte, Behavior.finish_bind,
    Program.start_modifyState]
  exact invariant.slaveLoop start

end SlaveInvariant

end

end Simbus.Axi4
