import Kiac.Gpu.Lease
import Kiac.Text.Utf8

/-!
# Reports of the watchdog as the monitor reads them

The watchdog cuts the message of a probe to 1024 bytes, and the monitor refuses a report of more
than 4096 bytes and a message of more than 1024. In between, JSON escapes some bytes by two or six
and replaces what is no character by three.
-/

namespace Kiac.Gpu

def probeMessage : Option Str → Str
  | none => str "Vulkan queue submission and transfer readback passed"
  | some err => err

/-- The report of one round of `watchHealth`. -/
def watchReport (identity : Identity) (failure : Option Str) (checkedAt : Time) : HealthReport :=
  ⟨1, identity.podUID, identity.nodeName, identity.bootID, failure.isNone, checkedAt,
    (probeMessage failure).take 1024⟩

/-- `json.Marshal` of a report, with the text of its time. -/
def HealthReport.text (stamp : Time → Str) (report : HealthReport) : Str :=
  str "\x7b\"version\":" ++ Str.itoa report.version ++
    str ",\"podUID\":\"" ++ report.podUID.jsonBody ++
    str "\",\"nodeName\":\"" ++ report.nodeName.jsonBody ++
    str "\",\"bootID\":\"" ++ report.bootID.jsonBody ++
    str "\",\"healthy\":" ++ (if report.healthy then str "true" else str "false") ++
    str ",\"checkedAt\":\"" ++ stamp report.checkedAt ++
    str "\",\"message\":\"" ++ report.message.jsonBody ++ str "\"\x7d"

/-- The file that `publishHealth` leaves at its path. -/
def published (text : Str) : ReportFile := .opened true text.length (.ok text)

def HealthReport.repaired (report : HealthReport) : HealthReport :=
  { report with
    podUID := report.podUID.repair
    nodeName := report.nodeName.repair
    bootID := report.bootID.repair
    message := report.message.repair }

structure ReportDecoder.Reads (decoder : ReportDecoder) (stamp : Time → Str)
    (report : HealthReport) : Prop where
  decode : decoder.decode (report.text stamp) = .ok (report.repaired, [])
  isEOF : decoder.isEOF [] = true

structure Identity.Ordinary (identity : Identity) : Prop where
  podUID : identity.podUID ≠ [] ∧ identity.podUID.repair = identity.podUID
  nodeName : identity.nodeName.repair = identity.nodeName
  bootID : identity.bootID ≠ [] ∧ identity.bootID.repair = identity.bootID

variable {decoder : ReportDecoder} {stamp : Time → Str} {identity : Identity} {failure : Option Str}
  {checkedAt now : Time}

theorem length_text (stamp : Time → Str) (report : HealthReport) :
    (report.text stamp).length =
      (({ report with message := [] } : HealthReport).text stamp).length +
        report.message.jsonBody.length := by
  simp only [HealthReport.text, Str.jsonBody, Str.mapRunes, List.length_append, List.length_nil]
  omega

theorem checkReport_published (ordinary : identity.Ordinary) (isSet : checkedAt ≠ 0)
    (notAhead : checkedAt ≤ now + second) (fresh : now ≤ checkedAt + healthMaxAge) :
    checkReport identity now (watchReport identity failure checkedAt).repaired =
      if (Str.repair ((probeMessage failure).take 1024)).length > 1024 then
        .error (str "Vulkan health message exceeds limit")
      else .ok ⟨failure.isNone, checkedAt, Str.repair ((probeMessage failure).take 1024)⟩ := by
  have early := not_lt.mpr (le_sub_iff.mpr notAhead)
  have late := not_lt.mpr (sub_le_iff.mpr fresh)
  simp [checkReport, HealthReport.repaired, watchReport, ordinary.podUID, ordinary.nodeName,
    ordinary.bootID, isSet, early, late]

section Sample

def sampleStamp : Time → Str := fun _ => str "2026-01-02T03:04:05.000000006Z"

def readerOf (report : HealthReport) : ReportDecoder :=
  ⟨fun _ => .ok (report.repaired, []), List.isEmpty⟩

theorem ordinary_sampleIdentity : sampleIdentity.Ordinary :=
  ⟨by decide +kernel, by decide +kernel, by decide +kernel⟩

def cutError : Str := List.replicate 1023 (byte 'x') ++ [0xC3, 0xA9]

end Sample

end Kiac.Gpu
