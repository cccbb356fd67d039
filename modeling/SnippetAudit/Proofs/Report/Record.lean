import SnippetAudit.Proofs.Data.Record
import SnippetAudit.Proofs.Json.Value
import SnippetAudit.Report.Record

/-!
Reports read back from their records. The record of a report may stand among other members, as long
as none of them has the name of one of its fields.
-/

namespace SnippetAudit

open Data
open Json (Carried ReadsBack)

theorem Severity.ofName?_name (severity : Severity) :
    Severity.ofName? severity.name = some severity := by
  cases severity <;> rfl

theorem Rule.ofName?_name (rule : Rule) : Rule.ofName? rule.name = some rule := by
  cases rule <;> rfl

theorem Status.ofName?_name (status : Status) : Status.ofName? status.name = some status := by
  cases status <;> rfl

theorem Growth.ofLabel?_label (growth : Growth) : Growth.ofLabel? growth.label = some growth := by
  cases growth <;> rfl

/-- The numbers of a report are such as its type can hold, and its doubles read back. -/
structure Report.Storable (report : Report) : Prop where
  score : report.score < Nat.pow 2 32
  codeLines : report.metrics.codeLines < Nat.pow 2 64
  share : ReadsBack report.metrics.share
  decisions : report.metrics.decisions < Nat.pow 2 32
  readability : ReadsBack report.metrics.readability
  maintainability : report.metrics.maintainability < Nat.pow 2 32
  lines : ∀ issue ∈ report.issues, issue.line < Nat.pow 2 64

theorem Issue.readFrom?_toData (source : Source) {issue : Issue}
    (small : issue.line < Nat.pow 2 64) : Issue.readFrom? source issue.toData = some issue := by
  have given : fields? Issue.fields .refused issue.toData =
      some [some (.text issue.severity.name), some (.text issue.description),
        some (.whole issue.line), some (.text issue.rule.name)] :=
    fields?_of_once rfl
  rw [Issue.readFrom?, given]
  simp only [needed_some, choice?, text?, nat64?_natCast small, Severity.ofName?_name,
    Rule.ofName?_name, Option.bind_eq_bind, Option.bind_some]
  rfl

theorem ReportMetrics.ofData?_toData {report : Report} (storable : report.Storable) :
    ReportMetrics.ofData? report.metrics.toData = some report.metrics := by
  obtain ⟨_, codeLines, _, decisions, _, maintainability, _⟩ := storable
  obtain ⟨_, _, metrics, _⟩ := report
  have given : fields? ReportMetrics.fields .refused metrics.toData =
      some [some (.whole metrics.codeLines), some (.decimal metrics.share),
        some (.whole metrics.decisions), some (.decimal metrics.readability),
        some (.whole metrics.maintainability), some (.text metrics.time.label),
        some (.text metrics.space.label)] :=
    fields?_of_once rfl
  rw [ReportMetrics.ofData?, given]
  simp only [needed_some, float?, text?, nat64?_natCast codeLines, nat32?_natCast decisions,
    nat32?_natCast maintainability, Growth.ofLabel?_label, Option.bind_eq_bind, Option.bind_some]
  rfl

/-- A report is read from a table that has its fields once, whatever other members it has. -/
theorem Report.readFrom?_of_fields (source : Source) {report : Report}
    (storable : report.Storable) {members : List (String × Data)}
    (given : fields? Report.fields .refused (.table members) =
      some (report.members.map fun member => some member.2)) :
    Report.readFrom? source (.table members) = some report := by
  have lists : ∀ items, list? (.list items) = some items := fun _ => rfl
  have issues : (report.issues.map Issue.toData).mapM (Issue.readFrom? source) =
      some report.issues :=
    mapM_map_eq_some fun issue member =>
      Issue.readFrom?_toData source (storable.lines issue member)
  rw [Report.readFrom?, given]
  simp only [Report.members, List.map_cons, List.map_nil, needed_some, choice?, lists,
    nat32?_natCast storable.score, Status.ofName?_name, ReportMetrics.ofData?_toData storable,
    issues, Option.bind_eq_bind, Option.bind_some]
  rfl

theorem carried_of_lt {n : Nat} (small : n < Nat.pow 2 32) {depth : Nat} :
    Carried depth (.whole n) :=
  .whole (Nat.lt_trans small (by decide))

theorem Issue.carried_toData {issue : Issue} (small : issue.line < Nat.pow 2 64) (depth : Nat) :
    Carried (depth + 2) issue.toData := by
  refine .table fun member listed => ?_
  simp only [List.mem_cons, List.not_mem_nil, or_false] at listed
  rcases listed with rfl | rfl | rfl | rfl
  · exact .text _
  · exact .text _
  · exact .whole small
  · exact .text _

theorem ReportMetrics.carried_toData {report : Report} (storable : report.Storable) (depth : Nat) :
    Carried (depth + 2) report.metrics.toData := by
  refine .table fun member listed => ?_
  simp only [List.mem_cons, List.not_mem_nil, or_false] at listed
  rcases listed with rfl | rfl | rfl | rfl | rfl | rfl | rfl
  · exact .whole storable.codeLines
  · exact .decimal storable.share
  · exact carried_of_lt storable.decisions
  · exact .decimal storable.readability
  · exact carried_of_lt storable.maintainability
  · exact .text _
  · exact .text _

theorem Report.carried_members {report : Report} (storable : report.Storable) (depth : Nat) :
    ∀ member ∈ report.members, Carried (depth + 3) member.2 := by
  intro member listed
  simp only [Report.members, List.mem_cons, List.not_mem_nil, or_false] at listed
  rcases listed with rfl | rfl | rfl | rfl
  · exact carried_of_lt storable.score
  · exact .text _
  · exact ReportMetrics.carried_toData storable (depth + 1)
  · refine .list fun item inIssues => ?_
    obtain ⟨issue, member, rfl⟩ := List.mem_map.mp inIssues
    exact Issue.carried_toData (storable.lines issue member) depth

end SnippetAudit
