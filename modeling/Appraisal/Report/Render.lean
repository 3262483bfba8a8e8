import Appraisal.Report.Csv
import Appraisal.Report.Table
/-!
# The text of a report

Tables and comma-separated values end with a line feed; JSON does not.
-/

namespace Appraisal.Report

def render (r : Report) : ReportFormat → String
  | .text => Table.render r
  | .json => r.toJson.pretty
  | .csv => Csv.render r.rows

end Appraisal.Report
