/-!
# Tags of YAML

A tag tells the type of a node. It is written in ASCII characters and in escapes, each of which shows a
byte, and the bytes need not make up characters. So the text of a tag is a list of bytes. A zero byte
ends it: `untilZero` drops that byte and all after it, and nothing else.
-/

namespace WorkflowAreas.Yaml

/-- The text of a tag, in bytes. -/
abbrev Tag := List UInt8

namespace Tag

/-- The tag of a text, each character in its bytes. -/
def ofString (s : String) : Tag :=
  s.toList.flatMap String.utf8EncodeChar

/-- The bytes before the first zero byte. -/
def untilZero (bytes : List UInt8) : Tag :=
  bytes.takeWhile (· != 0)

theorem zero_not_mem_untilZero (bytes : List UInt8) : 0 ∉ untilZero bytes := by
  intro h
  simpa using List.all_eq_true.1 (List.all_takeWhile (l := bytes)) 0 h

theorem untilZero_append {bytes more : List UInt8} (h : 0 ∉ bytes) :
    untilZero (bytes ++ more) = bytes ++ untilZero more :=
  List.takeWhile_append_of_pos fun _ hb ↦ bne_iff_ne.2 fun hz ↦ h (hz ▸ hb)

@[simp] theorem untilZero_zero_cons {bytes : List UInt8} : untilZero (0 :: bytes) = [] := rfl

/-- What the tags of the core types begin with. -/
def core : Tag :=
  ofString "tag:yaml.org,2002:"

/-- The tag of truth values. -/
def boolean : Tag :=
  core ++ ofString "bool"

end Tag

end WorkflowAreas.Yaml
