import TreeLint.Builtin.Arguments
import TreeLint.Builtin.Search
import TreeLint.Builtin.Settings
import TreeLint.Command.Execute

/-! A host of its own, so that the command runs by itself. What is proved of the command holds for
every host that keeps a few laws, of which this is one. Of ignore files it knows the usual patterns,
without character classes and alternatives. -/

namespace TreeLint

def Host.builtin : Host :=
  ⟨Arguments.parse, Settings.parse?, .builtin⟩

end TreeLint
