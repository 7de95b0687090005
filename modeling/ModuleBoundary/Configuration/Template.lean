/-! The configuration file that is written as a starting point. What it declares is
what holds without it, so that writing it changes no outcome.
-/

set_option autoImplicit false

namespace ModuleBoundary.Configuration

def templateLines : List String := [
  "# modbound configuration",
  "",
  "# Package whose direct sub-packages are the application modules",
  "# base_package = \"com.acme\"",
  "",
  "# Calls treated as event publication: \"method\" or \"Owner#method\"",
  "publish_methods = [",
  "    \"org.springframework.context.ApplicationEventPublisher#publishEvent\",",
  "    \"registerEvent\",",
  "]",
  "",
  "# Types other modules may use even though they are not exposed",
  "extension_points = []",
  "",
  "[markers.aggregate_root]",
  "annotations = [\"org.jmolecules.ddd.annotation.AggregateRoot\"]",
  "supertypes = [\"org.jmolecules.ddd.types.AggregateRoot\"]",
  "",
  "[markers.domain_event]",
  "annotations = [\"org.jmolecules.event.annotation.DomainEvent\"]",
  "supertypes = [\"org.jmolecules.event.types.DomainEvent\"]",
  "",
  "[markers.component]",
  "annotations = [",
  "    \"org.springframework.stereotype.Component\",",
  "    \"org.springframework.stereotype.Service\",",
  "    \"org.springframework.stereotype.Repository\",",
  "    \"org.springframework.stereotype.Controller\",",
  "    \"org.springframework.context.annotation.Configuration\",",
  "]",
  "# types = [\"javax.sql.DataSource\"]",
  "",
  "[markers.exposed]",
  "annotations = [\"org.springframework.modulith.NamedInterface\"]",
  "",
  "[rules]",
  "cycles = true",
  "undeclared_dependencies = true",
  "internal_access = true",
  "",
  "# [modules.order]",
  "# display_name = \"Orders\"",
  "# allowed_dependencies = [\"inventory\"]"]

/-- The letters of some lines, each of which is ended. -/
def lettersOfLines (lines : List String) : List Char :=
  lines.flatMap fun line => line.toList ++ ['\n']

def template : String := String.ofList (lettersOfLines templateLines)

@[simp] theorem toList_template : template.toList = lettersOfLines templateLines :=
  String.toList_ofList

end ModuleBoundary.Configuration
