import ClusterPlan.Gantt.Row
import ClusterPlan.Text.Basic

/-!
The Gantt chart as a table of text: a header, then one line for each row by start and job, fields
separated by semicolons and resources by commas.
-/

namespace ClusterPlan.Gantt

def header : String := "JobId;MoldableId;StartTime;Walltime;EndTime;Resources"

def line (r : GanttRow) : String :=
  Text.join ";"
    [toString r.job, toString r.alternative, toString r.start, toString r.walltime,
      toString r.last, Text.join "," (r.resources.map toString)]

def chronological (rows : List GanttRow) : List GanttRow :=
  rows.mergeSort fun r s => r.start < s.start || (r.start == s.start && r.job ≤ s.job)

def csv (rows : List GanttRow) : String :=
  String.join ((header :: (chronological rows).map line).map (· ++ "\n"))

end ClusterPlan.Gantt
