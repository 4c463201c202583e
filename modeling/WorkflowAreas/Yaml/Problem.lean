/-!
# Problems in YAML texts

What can be wrong with a text that is to be read as YAML.
-/

namespace WorkflowAreas.Yaml

/-- The reasons for which a text is not YAML. -/
inductive Problem
  | forbiddenCharacter
  | keyWithoutColon
  | entryNotAllowed
  | keyNotAllowed
  | valueNotAllowed
  | badStart
  | badDirective
  | badAnchor
  | badTag
  | undefinedTagHandle
  | undefinedAlias
  | badBlockHeader
  | tabInIndentation
  | endInQuotes
  | markerInQuotes
  | badEscape
  | colonBeforeIndicator
  | expectedDocumentStart
  | unsupportedVersion
  | repeatedDirective
  | expectedNode
  | expectedEntry
  | expectedKey
  | expectedFlowSeparator
  | severalDocuments
deriving DecidableEq

namespace Problem

/-- The problem in words. -/
def message : Problem → String
  | forbiddenCharacter => "control characters are not allowed"
  | keyWithoutColon => "could not find expected ':'"
  | entryNotAllowed => "block sequence entries are not allowed in this context"
  | keyNotAllowed => "mapping keys are not allowed in this context"
  | valueNotAllowed => "mapping values are not allowed in this context"
  | badStart => "found character that cannot start any token"
  | badDirective => "found a malformed directive"
  | badAnchor => "did not find expected alphabetic or numeric character"
  | badTag => "found a malformed tag"
  | undefinedTagHandle => "found undefined tag handle"
  | undefinedAlias => "found undefined alias"
  | badBlockHeader => "did not find expected comment or line break"
  | tabInIndentation => "found a tab character where an indentation space is expected"
  | endInQuotes => "found unexpected end of stream"
  | markerInQuotes => "found unexpected document indicator"
  | badEscape => "found unknown escape character"
  | colonBeforeIndicator => "found unexpected ':'"
  | expectedDocumentStart => "did not find expected <document start>"
  | unsupportedVersion => "found incompatible YAML document"
  | repeatedDirective => "found duplicate directive"
  | expectedNode => "did not find expected node content"
  | expectedEntry => "did not find expected '-' indicator"
  | expectedKey => "did not find expected key"
  | expectedFlowSeparator => "did not find expected ',' or closing bracket"
  | severalDocuments => "more than one document"

end Problem

end WorkflowAreas.Yaml
