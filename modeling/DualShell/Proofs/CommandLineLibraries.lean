import DualShell.CommandLine.Outcome
import DualShell.Proofs.CommandLineWords

/-!
What is expected of the libraries that the program is run with. Words are read as a request exactly
when they spell it, and settings come from the environment where it gives a value, else from a file.
The libraries that are in use meet both.
-/

namespace DualShell.CommandLine

open Settings

namespace Libraries

/-- Whether words after `render` are read as a command exactly when they spell a request. -/
def ReadsRequests (libraries : Libraries) : Prop :=
  ∀ (words : List Text) (command : Command),
    libraries.read ("render" :: words) = .command command ↔
      ∃ request : RenderRequest, request.IsSpelled words ∧ command = .render request

/-- Whether the settings that are loaded have the values that are read from the environment, those of
a file where the environment gives none, and the defaults where neither does. -/
def LoadsLayers (libraries : Libraries) (read : Text → SettingValue)
    (fromFile? : Surroundings → Option Source) : Prop :=
  ∀ (surroundings : Surroundings) (settings : Settings),
    libraries.load surroundings = some settings →
      ∃ fromFile, fromFile? surroundings = some fromFile ∧
        ofSource? ((Source.ofVariables read surroundings.environment).orElse fromFile) =
          some settings

theorem readWords_eq_command_iff {words : List Text} {command : Command} :
    readWords words = .command command ↔ readCommand? words = some command := by
  unfold readWords
  split
  · next found _ hfound => rw [hfound, Reading.command.injEq, Option.some.injEq]
  · next hnone => simp [hnone]
  · next hnone =>
    rw [hnone]
    split <;> simp

theorem readsRequests_standard : standard.ReadsRequests := fun _ _ =>
  readWords_eq_command_iff.trans readCommand?_eq_some_iff

theorem loadsLayers_standard :
    standard.LoadsLayers SettingValue.ofEnvironment
      fun surroundings => Source.ofFiles? surroundings.files surroundings.environment := by
  intro surroundings settings h
  obtain ⟨fromFile, hfile, hsettings⟩ := Option.bind_eq_some_iff.mp h
  exact ⟨fromFile, hfile, hsettings⟩

end Libraries

end DualShell.CommandLine
