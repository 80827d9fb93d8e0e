import Mathlib.Data.List.Basic

/-! # Hub tickets

A ticket is a receipt for a check that the Worker made: a signed text that names a user, a workspace and
perhaps a session. Times are milliseconds, the expiry of a ticket is in seconds.
-/
namespace HermesEnterprise.Hubs

abbrev Text := List Char

structure HubTicket where
  userId : ℕ
  workspaceId : ℕ
  sessionId : Option ℕ
  exp : ℕ
  deriving DecidableEq

/-- The JSON text of a ticket in base64url, the HMAC of a text under the ticket secret in base64url, and
the two ways back. -/
structure Platform where
  encode : HubTicket → Text
  decode : Text → Option HubTicket
  sign : Text → Text
  verify : Text → Text → Bool

def ticketTtlSeconds : ℕ := 10 * 60

/-- What a ticket minted now says. -/
def ticketPayload (now userId workspaceId : ℕ) (sessionId : Option ℕ) : HubTicket :=
  { userId, workspaceId, sessionId, exp := now / 1000 + ticketTtlSeconds }

def mintHubTicket (P : Platform) (now userId workspaceId : ℕ) (sessionId : Option ℕ) : Text :=
  let body := P.encode (ticketPayload now userId workspaceId sessionId);
  body ++ '.' :: P.sign body

/-- The two parts of a ticket text that are looked at. -/
def ticketParts (ticket : Text) : Option (Text × Text) :=
  match ticket.splitOn '.' with
  | body :: signature :: _ => if body = [] ∨ signature = [] then none else some (body,signature)
  | _ => none

def verifyHubTicket (P : Platform) (now : ℕ) (ticket : Text) : Option HubTicket :=
  match ticketParts ticket with
  | none => none
  | some (body,signature) =>
    if P.verify body signature then
      match P.decode body with
      | none => none
      | some payload => if payload.exp * 1000 ≤ now then none else some payload
    else none

/-- What a verified ticket was read from. -/
theorem of_verifyHubTicket {P : Platform} {now : ℕ} {ticket : Text} {payload : HubTicket}
    (h : verifyHubTicket P now ticket = some payload) :
    ∃ body signature, ticketParts ticket = some (body,signature) ∧ P.verify body signature = true ∧
      P.decode body = some payload := by
  unfold verifyHubTicket at h
  split at h
  next => cases h
  next body signature hp =>
    split at h
    next hv =>
      split at h
      next => cases h
      next p hd =>
        split at h
        · cases h
        · cases h
          exact ⟨body,signature,hp,hv,hd⟩
    next => cases h

/-- A ticket lives no longer than the time to live after it was minted. -/
theorem ticketPayload_exp (now u w : ℕ) (sessionId : Option ℕ) :
    (ticketPayload now u w sessionId).exp * 1000 ≤ now + ticketTtlSeconds * 1000 := by
  simp only [ticketPayload]
  omega

theorem ticketParts_join {body signature : Text} (hb : '.' ∉ body) (hs : '.' ∉ signature) (hbn : body ≠ [])
    (hsn : signature ≠ []) : ticketParts (body ++ '.' :: signature) = some (body,signature) := by
  unfold ticketParts
  rw [List.splitOn_append_cons_self_of_not_mem hb, List.splitOn_eq_singleton hs]
  simp [hbn, hsn]

/-- A minted ticket verifies until it expires, when the texts of the platform have no dot. -/
theorem verifyHubTicket_mint {P : Platform} {minted now u w : ℕ} {sessionId : Option ℕ}
    (hcode : P.decode (P.encode (ticketPayload minted u w sessionId)) = some (ticketPayload minted u w sessionId))
    (hsign : ∀ b, P.verify b (P.sign b) = true)
    (hdot : ∀ t, '.' ∉ P.encode t ∧ P.encode t ≠ []) (hsdot : ∀ b, '.' ∉ P.sign b ∧ P.sign b ≠ []) :
    verifyHubTicket P now (mintHubTicket P minted u w sessionId) =
      if (ticketPayload minted u w sessionId).exp * 1000 ≤ now then none
      else some (ticketPayload minted u w sessionId) := by
  have hparts := ticketParts_join (hdot (ticketPayload minted u w sessionId)).1
    (hsdot (P.encode (ticketPayload minted u w sessionId))).1 (hdot _).2 (hsdot _).2
  simp only [verifyHubTicket, mintHubTicket, hparts, hsign, hcode, if_true]

end HermesEnterprise.Hubs
