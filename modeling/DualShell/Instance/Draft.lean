import DualShell.Statement.Basic
import DualShell.Token

/-!
Drafts of instances, before they are checked. A draft starts from a name; the home of the instance
lies under the temporary directory and its logs in its home unless an edit says otherwise.
-/

namespace DualShell

structure InstanceDraft where
  name : Text
  /-- A template of the directory that the instance runs in. -/
  home : Text
  /-- A template of the directory that receives logs and the exit status. -/
  logDirectory : Text
  /-- The variables that the run script gets beside those of every instance. -/
  exports : Variables
  /-- What is done once, before the run script is written. -/
  init : List Statement
  /-- What the run script does. -/
  run : List Statement
  deriving DecidableEq

namespace InstanceDraft

def defaultHome : Text :=
  Token.temporaryDirectory.placeholder ++ Token.fileSeparator.placeholder ++
    portableReference "INSTANCE_NAME"

def defaultLogDirectory : Text := portableReference "INSTANCE_HOME"

def new (name : Text) : InstanceDraft := ⟨name, defaultHome, defaultLogDirectory, .empty, [], []⟩

/-- A change of a draft. -/
inductive Edit where
  | home (template : Text)
  | logDirectory (template : Text)
  | exportOne (key value : Text)
  | exportAll (added : Variables)
  | init (added : Statement)
  | run (added : Statement)
  deriving DecidableEq

def edit (draft : InstanceDraft) : Edit → InstanceDraft
  | .home template => { draft with home := template }
  | .logDirectory template => { draft with logDirectory := template }
  | .exportOne key value => { draft with exports := draft.exports.insert key value }
  | .exportAll added => { draft with exports := draft.exports.insertAll added.entries }
  | .init added => { draft with init := draft.init ++ [added] }
  | .run added => { draft with run := draft.run ++ [added] }

def editAll (draft : InstanceDraft) (changes : List Edit) : InstanceDraft :=
  changes.foldl edit draft

end InstanceDraft

end DualShell
