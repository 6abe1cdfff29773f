import CodeAtlas.Graph.Basic
import CodeAtlas.Settings.Basic
import CodeAtlas.Settings.Glob

/-!
# Leaving out files

Entities of files that match a pattern are left out of a graph. The edges stay; those that lose an end
dangle from then on.
-/

namespace CodeAtlas

/-- The graph without the entities of certain files. -/
def Graph.withoutFiles (excluded : String → Bool) (g : Graph) : Graph :=
  { g with nodes := g.nodes.filter fun e => !e.file.any excluded }

namespace Settings

/-- The given patterns, in order. -/
def excludeTexts (s : Settings) : List String := s.exclude.getD []

/-- The given patterns that can be read. -/
def patterns (s : Settings) : List Glob := s.excludeTexts.filterMap Glob.ofText?

/-- The given patterns that cannot be read. -/
def invalidPatterns (s : Settings) : List String :=
  s.excludeTexts.filter fun text => (Glob.ofText? text).isNone

/-- Does a given pattern match the path? -/
def excludes (s : Settings) (path : String) : Bool :=
  s.patterns.any fun glob => glob.accepts path

/-- The graph without the files that match a given pattern. -/
def applyExcludes (s : Settings) (g : Graph) : Graph := g.withoutFiles s.excludes

end Settings

end CodeAtlas
