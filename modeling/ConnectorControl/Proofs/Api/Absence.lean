import Mathlib.Data.List.Basic
import ConnectorControl.Api.Reply

/-!
# What an error of the API tells of an object

A reply with the status of an error tells an error, in its body or, if the body is no report of one,
by its status and text (`HttpReply.Tells`).  What is not found is absent to a list and a delete by
the error's code, whatever else it says.  A get goes by the reason instead, so an error of the same
code with another reason fails it, and so does any body that is no report
(`absent_unless_other_reason`).
-/

namespace ConnectorControl

namespace HttpReply

def report (r : HttpReply) : Decoded ApiError :=
  Decode.text (.ofNames ApiError.members) ApiError.decode r.body

/-- a reply that is an error, and the error that it tells -/
inductive Tells (r : HttpReply) : ApiError → Prop
  /-- the body reports the error, with a code of its own -/
  | report (e : ApiError) (least : 400 ≤ r.status) (most : r.status < 600)
    (body : r.report = .ok e) : Tells r e
  /-- the body is no report, so the error is made of the status and the text -/
  | text (cause : DecodeError) (least : 400 ≤ r.status) (most : r.status < 600)
    (body : r.report = .error cause) : Tells r (.ofText r)

variable {r : HttpReply} {e : ApiError}

theorem Tells.isError (h : r.Tells e) : 400 ≤ r.status ∧ r.status < 600 := by
  cases h with
  | report _ least most => exact ⟨least, most⟩
  | text _ least most => exact ⟨least, most⟩

theorem Tells.ofReply_eq (h : r.Tells e) : ApiError.ofReply r = e := by
  unfold ApiError.ofReply
  cases h with
  | report _ _ _ body =>
    unfold HttpReply.report at body
    rw [body]
  | text _ _ _ body =>
    unfold HttpReply.report at body
    rw [body]

/-- a reply with the status of an error tells one -/
theorem exists_tells (least : 400 ≤ r.status) (most : r.status < 600) : ∃ e, r.Tells e := by
  cases body : r.report with
  | ok e => exact ⟨e, .report e least most body⟩
  | error cause => exact ⟨_, .text cause least most body⟩

/-- an error that is told without a report has the code of the reply, and no reason of its own -/
theorem Tells.of_no_report (h : r.Tells e) (hbody : ∀ e', r.report ≠ .ok e') :
    e.code = r.status ∧ e.reason = "Failed to parse error data" := by
  cases h with
  | report _ _ _ body => exact absurd body (hbody e)
  | text _ _ _ _ => exact ⟨rfl, rfl⟩

theorem Tells.receive (h : r.Tells e) (c : Call) : c.receive r = c.onError e := by
  obtain ⟨least, most⟩ := h.isError
  have hstatus : isHttpStatus r.status = true := by
    have hleast : 100 ≤ r.status := by omega
    have hmost : r.status ≤ 999 := by omega
    simp [isHttpStatus, hleast, hmost]
  unfold Call.receive
  rw [hstatus, if_neg (by simp), if_pos ⟨least, most⟩, h.ofReply_eq]

end HttpReply

namespace Call

variable {r : HttpReply} {e : ApiError}

/-- Any error of code 404, whatever its reason and message, means for a list that there is nothing
and for a delete that there was nothing, and fails a patch.  For a get it means that there is
nothing if it gives `NotFound` as its reason, and otherwise it fails the get: so does every reply
whose body is no report of an error.  A create finds the object there if and only if the code is
409.  Any other error fails the call. -/
theorem absent_unless_other_reason (h : r.Tells e) :
    (∀ kind ns selector, (list kind ns selector).receive r =
      if e.code = 404 then .ok [] else .error (.api e)) ∧
    (∀ kind ns name, (delete kind ns name).receive r =
      if e.code = 404 then .ok false else .error (.api e)) ∧
    (∀ kind ns name, (get kind ns name).receive r =
      if e.reason = "NotFound" then .ok none else .error (.api e)) ∧
    ((∀ e', r.report ≠ .ok e') → e.code = r.status ∧
      ∀ kind ns name, (get kind ns name).receive r = .error (.api e)) ∧
    (∀ kind ns name body, (patch kind ns name body).receive r = .error (.api e) ∧
      (patchStatus kind ns name body).receive r = .error (.api e)) ∧
    ∀ kind ns o, (create kind ns o).receive r =
      if e.code = 409 then .error (.alreadyExists kind.name (o.metadata.name.getD ""))
      else .error (.api e) := by
  have hget : ∀ kind ns name, (get kind ns name).receive r =
      if e.reason = "NotFound" then .ok none else .error (.api e) := fun _ _ _ => h.receive _
  refine ⟨fun _ _ _ => h.receive _, fun _ _ _ => h.receive _, hget, fun hbody => ?_,
    fun _ _ _ _ => ⟨h.receive _, h.receive _⟩, fun _ _ _ => h.receive _⟩
  obtain ⟨hcode, hreason⟩ := h.of_no_report hbody
  refine ⟨hcode, fun kind ns name => ?_⟩
  rw [hget, hreason]
  exact if_neg (by decide)

def namedReply : HttpReply :=
  ⟨404, "\x7b\"status\":\"Failure\",\"code\":404,\"reason\":\"NotFound\"\x7d"⟩

def namedError : ApiError := ⟨"Failure", "", "NotFound", 404⟩

theorem absent_unless_other_reason_named :
    namedReply.Tells namedError ∧
      (list (.derived .scaledObject) "apps" "vance.io/connector=portal").receive namedReply =
        .ok [] ∧
      (delete (.derived .scaledObject) "apps" "portal-vso").receive namedReply = .ok false ∧
      (get (.derived .scaledObject) "apps" "portal-vso").receive namedReply = .ok none := by
  have h : namedReply.Tells namedError :=
    .report namedError (by decide) (by decide) (by decide +kernel)
  obtain ⟨hlist, hdelete, hget, _⟩ := absent_unless_other_reason h
  exact ⟨h, hlist _ _ _, hdelete _ _ _, hget _ _ _⟩

def pageReply : HttpReply := ⟨404, "404 page not found"⟩

def pageError : ApiError :=
  ⟨"404 Not Found", "\"404 page not found\"", "Failed to parse error data", 404⟩

/-- a server that does not know a kind has nothing to list and to delete, but a get fails -/
theorem not_absent_page :
    pageReply.Tells pageError ∧ pageError.code = 404 ∧
      (list (.derived .scaledObject) "apps" "vance.io/connector=portal").receive pageReply =
        .ok [] ∧
      (delete (.derived .scaledObject) "apps" "portal-vso").receive pageReply = .ok false ∧
      (get (.derived .scaledObject) "apps" "portal-vso").receive pageReply ≠ .ok none := by
  have htext : pageError = .ofText pageReply := by decide +kernel
  have hbody : pageReply.report = .error (.unreadable "the text is not JSON") := by
    decide +kernel
  have h : pageReply.Tells pageError := by
    rw [htext]
    exact .text _ (by decide) (by decide) hbody
  refine ⟨h, rfl, h.receive _, h.receive _, ?_⟩
  rw [h.receive]
  exact nofun

end Call
end ConnectorControl
