import Mathlib.Algebra.Order.Ring.Int
import Mathlib.Data.Prod.Lex
import Mathlib.Data.String.Basic
import NeroCD.Sorting
import NeroCD.Store.Leases

-- Retention of run logs (`store/retention.go`). `bodyHash` stands for the hash of a policy's version, `format` for
-- `Format(time.RFC3339)` of a time in UTC.

namespace NeroCD.Store.Retention

open NeroCD.Domain NeroCD.GoStrings NeroCD.Records NeroCD.Sorting

variable (choices : Choices) (bodyHash : RunLogRetentionPolicy → String) (format : Time → String)

section

variable {logs : List RunLog} {chosen : List (RunLog × Nat)}

end

section

variable {choices} {bodyHash} {format} {id body : String} {audit : AuditEvent} {now : Time} {s : RetainedStore}

end

def sampleAudit : AuditEvent :=
  { id := "audit", actorID := "user", action := "retention", targetID := "", createdAt := 9 }

end NeroCD.Store.Retention
