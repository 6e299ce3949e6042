/-
Artifacts: the three files a new component starts with, and where they go. Their text depends on the component alone.
-/
import Componentry.Settings

namespace Componentry

/-- a file to be created -/
structure Artifact where
  path : Path
  body : Text
  deriving DecidableEq

namespace Artifact

/-- the source of the component -/
def componentBody (c : Component) : Text :=
  "<template>\n  <div class=\"".toList ++ c.cssClass ++
  ("\">\n    <slot />\n  </div>\n</template>\n\n<script setup lang=\"ts\">\ninterface Props \x7b\n  // props\n\x7d\n\n" ++
    "// withDefaults(defineProps<Props>(), \x7b\x7d)\ndefineOptions(\x7b\n  name: '").toList ++ c.tagName ++
  "'\n\x7d)\n</script>\n\n<style scoped>\n.".toList ++ c.cssClass ++
  " \x7b\n  /* styles */\n\x7d\n</style>\n".toList

/-- the module that installs and exports the component -/
def moduleBody (c : Component) : Text :=
  let name := c.pascalName
  "import ".toList ++ name ++ " from './src/".toList ++ name ++
  ".vue'\nimport type \x7b App, Plugin \x7d from 'vue'\n\n".toList ++ name ++
  ".install = (app: App) => \x7b\n  app.component('".toList ++ c.tagName ++ "', ".toList ++ name ++
  ")\n\x7d\n\nexport \x7b ".toList ++ name ++ " \x7d\nexport default ".toList ++ name ++ " as typeof ".toList ++
  name ++ " & Plugin\n".toList

/-- the front matter of the documentation page, between its two fences -/
def frontMatter (c : Component) : Text :=
  "title: ".toList ++ c.pascalName ++ [' '] ++ c.title ++ "\ndescription: ".toList ++ c.pascalName ++
  " component.\n".toList

/-- the documentation page of the component -/
def docBody (c : Component) : Text :=
  let name := c.pascalName
  let tag := c.tagName
  let demo := ['<'] ++ tag ++ ">Content</".toList ++ tag ++ ">\n".toList
  "---\n".toList ++ frontMatter c ++ "---\n\n# ".toList ++ name ++ [' '] ++ c.title ++
  "\n\n## Basic usage\n\n<demo-block>\n  ".toList ++ demo ++ "</demo-block>\n\n\x60\x60\x60vue\n".toList ++ demo ++
  ("\x60\x60\x60\n\n## API\n\n### Props\n\n| Name | Description | Type | Default |\n" ++
    "|------|-------------|------|---------|\n| - | - | - | - |\n").toList

/-- the artifacts of a component, in the order in which they are created -/
def all (s : Settings) (c : Component) : List Artifact :=
  let dir := s.componentDir c.slug
  [⟨(dir.child "src".toList).child (c.pascalName ++ ".vue".toList), componentBody c⟩,
   ⟨dir.child "index.ts".toList, moduleBody c⟩,
   ⟨(s.docDir c.slug).child "index.md".toList, docBody c⟩]

end Artifact

end Componentry
