import SnippetAudit.Data.Record
import SnippetAudit.Settings.Basic

/-!
Settings as records of a text format. Every field has a default, and so has every section.
-/

namespace SnippetAudit

open Data

namespace Thresholds

def fields : List String :=
  ["max_line_length", "complexity_high", "complexity_medium", "documentation_min_code_lines",
    "documentation_min_comment_percentage", "debug_output_min", "max_nesting_depth"]

def toData (thresholds : Thresholds) : Data :=
  .table [("max_line_length", .whole thresholds.maxLineLength),
    ("complexity_high", .whole thresholds.complexityHigh),
    ("complexity_medium", .whole thresholds.complexityMedium),
    ("documentation_min_code_lines", .whole thresholds.documentationMinCodeLines),
    ("documentation_min_comment_percentage", .decimal thresholds.documentationMinShare),
    ("debug_output_min", .whole thresholds.debugOutputMin),
    ("max_nesting_depth", .whole thresholds.maxNestingDepth)]

def ofData? (surplus : Surplus) (data : Data) : Option Thresholds :=
  let standard : Thresholds := {}
  match fields? fields surplus data with
  | some [lineLength, high, medium, codeLines, share, debugOutput, nesting] => do
    let maxLineLength ← optional standard.maxLineLength nat64? lineLength
    let complexityHigh ← optional standard.complexityHigh nat32? high
    let complexityMedium ← optional standard.complexityMedium nat32? medium
    let documentationMinCodeLines ← optional standard.documentationMinCodeLines nat64? codeLines
    let documentationMinShare ← optional standard.documentationMinShare float? share
    let debugOutputMin ← optional standard.debugOutputMin nat64? debugOutput
    let maxNestingDepth ← optional standard.maxNestingDepth nat64? nesting
    return { maxLineLength, complexityHigh, complexityMedium, documentationMinCodeLines,
             documentationMinShare, debugOutputMin, maxNestingDepth }
  | _ => none

end Thresholds

namespace Weights

def fields : List String :=
  Severity.all.map Severity.name

def toData (weights : Weights) : Data :=
  .table (Severity.all.map fun severity => (severity.name, .whole (weights.of severity)))

def ofData? (surplus : Surplus) (data : Data) : Option Weights :=
  let standard : Weights := {}
  match fields? fields surplus data with
  | some [critical, high, medium, low, info] => do
    let critical ← optional standard.critical nat32? critical
    let high ← optional standard.high nat32? high
    let medium ← optional standard.medium nat32? medium
    let low ← optional standard.low nat32? low
    let info ← optional standard.info nat32? info
    return { critical, high, medium, low, info }
  | _ => none

end Weights

namespace Limits

def toData (limits : Limits) : Data :=
  .table [("max_input_bytes", .whole limits.maxInputBytes)]

def ofData? (surplus : Surplus) (data : Data) : Option Limits :=
  match fields? ["max_input_bytes"] surplus data with
  | some [maxInputBytes] => do
    let maxInputBytes ← optional ({} : Limits).maxInputBytes nat64? maxInputBytes
    return { maxInputBytes }
  | _ => none

end Limits

namespace ArchiveSettings

def toData (archive : ArchiveSettings) : Data :=
  .table [("enabled", .bool archive.enabled), ("path", .text archive.path)]

def ofData? (surplus : Surplus) (data : Data) : Option ArchiveSettings :=
  let standard : ArchiveSettings := {}
  match fields? ["enabled", "path"] surplus data with
  | some [enabled, path] => do
    let enabled ← optional standard.enabled bool? enabled
    let path ← optional standard.path text? path
    return { enabled, path }
  | _ => none

end ArchiveSettings

namespace Settings

def fields : List String :=
  ["thresholds", "scoring", "limits", "archive"]

def toData (settings : Settings) : Data :=
  .table [("thresholds", settings.thresholds.toData), ("scoring", settings.weights.toData),
    ("limits", settings.limits.toData), ("archive", settings.archive.toData)]

def ofData? (surplus : Surplus) (data : Data) : Option Settings :=
  match fields? fields surplus data with
  | some [thresholds, weights, limits, archive] => do
    let thresholds ← optional {} (Thresholds.ofData? surplus) thresholds
    let weights ← optional {} (Weights.ofData? surplus) weights
    let limits ← optional {} (Limits.ofData? surplus) limits
    let archive ← optional {} (ArchiveSettings.ofData? surplus) archive
    return { thresholds, weights, limits, archive }
  | _ => none

end Settings

end SnippetAudit
