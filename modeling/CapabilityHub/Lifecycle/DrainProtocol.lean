import CapabilityHub.Lifecycle.DrainRuns

/-! # What holds along the runs of a drain controller

The states only move forward, a drained target has no pin in flight, and no pin is asked to cancel
twice, as long as no coordinate is retired over a pin of a revision that was retired by force.
-/

namespace CapabilityHub.Lifecycle

variable {settings : DrainSettings} {data : CharacterData} {system : System} {action : Action}

/-- No pin was asked more than once, and one that was not asked was not listed. -/
structure System.Sound (settings : DrainSettings) (system : System) : Prop where
  controller : DrainController.Sound settings system.controller
  once : ∀ id, system.listed id ≤ 1
  unlisted : ∀ id pin, system.controller.pins.get? id = some pin → ¬pin.cancelRequested →
    system.listed id = 0

theorem System.Sound.step (sound : system.Sound settings)
    (lawful : system.controller.Lawful data action) :
    (Lifecycle.step settings data system action).Sound settings := by
  unfold Lifecycle.step
  cases performed : system.controller.perform settings data action with
  | error raised => exact sound
  | ok done =>
      obtain ⟨requests, next⟩ := done
      obtain ⟨advances, asks⟩ := sound.controller.perform lawful performed
      have unlisted (id : String) (asked : id ∈ requests) : system.listed id = 0 := by
        obtain ⟨old, found, unasked⟩ := asks.unasked id asked
        exact sound.unlisted id old found unasked
      have others (id : String) (unasked : id ∉ requests) : requests.count id = 0 :=
        List.count_eq_zero.mpr unasked
      refine ⟨advances.sound, fun id => ?_, fun id pin found unasked => ?_⟩
      · have once := sound.once id
        by_cases asked : id ∈ requests
        · have none := unlisted id asked
          have count := List.nodup_iff_count_le_one.mp asks.nodup id
          dsimp only
          split <;> omega
        · have none := others id asked
          dsimp only
          split <;> omega
      · have none := others id fun asked => unasked (asks.asked id asked pin found)
        dsimp only
        split
        next => exact (Nat.zero_add _).trans none
        next stays =>
          have before : ∃ old, system.controller.pins.get? id = some old := by
            rw [found] at stays
            cases present : system.controller.pins.get? id with
            | some old => exact ⟨old, rfl⟩
            | none => exact absurd ⟨congrArg Option.isNone present, rfl⟩ stays
          obtain ⟨old, present⟩ := before
          have unlisted := sound.unlisted id old present fun asked =>
            unasked (advances.asked id old pin present found asked)
          omega

theorem System.Sound.keeps (sound : system.Sound settings)
    (lawful : system.controller.Lawful data action) : Keeps settings data system action := by
  have after := sound.step lawful
  have evolves : DrainController.Evolves system.controller
      (Lifecycle.step settings data system action).controller := by
    unfold Lifecycle.step
    cases performed : system.controller.perform settings data action with
    | error raised => exact DrainController.evolves_refl
    | ok done => exact (sound.controller.perform lawful performed).1.evolves
  refine ⟨evolves.state, fun id pin found absent => ?_, after.controller.pinned,
    after.controller.honest, after.once, after.controller.coordinates, after.controller.revisions,
    after.controller.inFlight⟩
  rcases evolves.pins id pin found with ⟨old, present, _⟩ | closed
  · exact nomatch present.symm.trans absent
  · exact closed

theorem System.sound_initial : ({} : System).Sound settings :=
  ⟨⟨nofun, nofun, nofun, Nat.zero_le _, Nat.zero_le _, Nat.zero_le _⟩, fun _ => Nat.zero_le _,
    nofun⟩

/-- A lawful run of a drain controller. -/
theorem keeps_along {actions : List Action}
    (lawful : Along (step settings data)
      (fun system action => system.controller.Lawful data action) {} actions) :
    Along (step settings data) (Keeps settings data) {} actions :=
  lawful.imp System.sound_initial (fun _ _ lawful sound => sound.step lawful)
    fun _ _ sound lawful => sound.keeps lawful

/-- Text that is its own normal form, in which only the ASCII control characters are control
characters. -/
def plainText : CharacterData where
  nfc := id
  control := fun character => character.toNat < 32

def noLimits : DrainSettings where
  positive := by decide

/-- A coordinate is drained while an execution is in flight, which is asked to cancel. -/
def drainedRun : List Action :=
  [.register "c" "1", .admission "c" "1" "p" true, .beginDrain "c" none "update",
    .advance "c" none 5 9, .release "p"]

theorem keeps_along_drainedRun :
    Along (step noLimits plainText) (Keeps noLimits plainText) {} drainedRun :=
  keeps_along (by decide +kernel)

/-- The revision is retired by force over its pin, and the coordinate is reported as drained. -/
def forcedRun : List Action :=
  [.register "c" "1", .admission "c" "1" "p" false, .beginDrain "c" none "update"]

theorem forced_coordinate_reports_drained : ¬∀ actions : List Action,
    Along (step noLimits plainText) (Keeps noLimits plainText) {} actions := by
  intro always
  have last := (always (forcedRun ++ [.forceRetire "c" (some "1") .allowInFlight "forced"])).last
  have empty := last.honest ⟨5, .coordinateRetired, ("c", none), 1, some "drained", 0⟩
    (by decide +kernel) ⟨.inr rfl, rfl⟩
  exact absurd empty.inFlight (by decide)

end CapabilityHub.Lifecycle
