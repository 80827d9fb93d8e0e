import HermesEnterprise.Security.Fetch
import Mathlib.Data.List.Basic
import Mathlib.Order.Nat

/-! # What a fetch sends

Whatever the network answers, a request goes to a vetted address, and what was asked right before it were the
addresses of its host. Each request leaves one hop.
-/
namespace HermesEnterprise.Security
open HermesEnterprise.Inbound
variable {web : Web} {options : FetchUrlOptions} {answers : Answers} {rawUrl method raw : Text} {url current : WebUrl}
variable {hops : List FetchHop} {asked before later : List Effect} {addresses : List Text} {hop left : ℕ}

section Rules

/-- An address that every rule admits which needs no network. -/
structure Vetted (web : Web) (options : FetchUrlOptions) (url : WebUrl) : Prop where
  scheme : url.protocol = text "https:" ∨ url.protocol = text "http:"
  credentials : url.username = [] ∧ url.password = []
  port : url.port = [] ∨ url.port = text "80" ∨ url.port = text "443"
  denied : hostMatches web url.hostname (deniedHosts options) = false
  allowed : hostMatches web url.hostname options.allowlist = true

/-- What was asked right before a request to a host: nothing of an address, else all addresses of the host. -/
def Checked (before : List Effect) (host : Text) : Prop :=
  (isIpLiteral host = true ∧ (checkAddress (withoutBrackets host)).allowed = true) ∨
    ∃ earlier addresses, before = earlier ++ [.resolve host (.ok addresses)] ∧ addresses ≠ [] ∧
      ∀ address ∈ addresses, (checkAddress address).allowed = true

structure Permitted (web : Web) (options : FetchUrlOptions) (before : List Effect) (url : WebUrl)
    (method redirect : Text) : Prop where
  method : method ∈ fetchUrlMethods
  redirect : redirect = text "manual"
  vetted : Vetted web options url
  checked : Checked before url.hostname

/-- Every request is permitted after what was asked before it. -/
def carefulFrom (web : Web) (options : FetchUrlOptions) (before : List Effect) : List Effect → Prop
  | [] => True
  | .resolve host answer :: rest => carefulFrom web options (before ++ [.resolve host answer]) rest
  | .send url method redirect :: rest =>
    Permitted web options before url method redirect ∧ carefulFrom web options (before ++ [.send url method redirect]) rest

theorem carefulFrom_append (before asked later : List Effect) : carefulFrom web options before (asked ++ later) ↔
    carefulFrom web options before asked ∧ carefulFrom web options (before ++ asked) later := by
  induction asked generalizing before with
  | nil => simp [carefulFrom]
  | cons effect rest ih =>
    cases effect with
    | resolve host answer =>
      rw [List.cons_append, carefulFrom, carefulFrom, ih, List.append_assoc]
      rfl
    | send url method redirect =>
      rw [List.cons_append, carefulFrom, carefulFrom, ih, List.append_assoc, and_assoc]
      rfl

theorem permitted_of_careful {effects : List Effect} (h : carefulFrom web options [] effects) :
    ∀ before url method redirect later, effects = before ++ .send url method redirect :: later →
      Permitted web options before url method redirect := by
  rintro before url method redirect later rfl
  exact ((carefulFrom_append [] before _).mp h).2.1

end Rules

section Steps

/-- The address and host of every request, in order. -/
def sent (effects : List Effect) : List (Text × Text) :=
  effects.filterMap fun effect =>
    match effect with
    | .send url _ _ => some (url.href,url.hostname)
    | .resolve .. => none

def hopsOf : FetchUrlResult → List FetchHop
  | .ok result => result.hops
  | .error refused => refused.hops

def hopNames (hops : List FetchHop) : List (Text × Text) := hops.map fun hop => (hop.url,hop.host)

theorem vet_ok (h : vet web raw options.allowlist (deniedHosts options) = .ok url) : Vetted web options url := by
  unfold vet at h
  split at h
  · cases h
  · split at h
    · cases h
    · rename_i hscheme
      split at h
      · cases h
      · rename_i hcredentials
        split at h
        · cases h
        · rename_i hport
          split at h
          · cases h
          · rename_i hdenied
            split at h
            · cases h
            · split at h
              · cases h
              · rename_i hallowed
                cases h
                simp only [Bool.or_eq_true, Bool.not_eq_true', not_or, Bool.not_eq_false,
                  List.isEmpty_iff] at hcredentials
                simp only [Bool.and_eq_true, Bool.not_eq_true', decide_eq_true_eq, List.isEmpty_eq_false_iff] at hport
                refine ⟨?_,hcredentials,?_,Bool.eq_false_iff.mpr hdenied,?_⟩
                · by_contra hneither
                  exact hscheme (not_or.mp hneither)
                · by_contra hneither
                  obtain ⟨hempty,hothers⟩ := not_or.mp hneither
                  exact hport ⟨⟨hempty,(not_or.mp hothers).1⟩,(not_or.mp hothers).2⟩
                · simpa using hallowed

theorem refusedAddress_none (h : refusedAddress addresses = none) :
    ∀ address ∈ addresses, (checkAddress address).allowed = true := by
  intro address haddress
  have hnone := List.find?_eq_none.mp (Option.map_eq_none_iff.mp h) address haddress
  simpa using hnone

/-- A host that is resolved or refused: no request is sent, and what is found was checked. -/
theorem vetHost_cases (web : Web) (options : FetchUrlOptions) (answers : Answers) (hop : ℕ) (url : WebUrl) (hops : List FetchHop) :
    sent (vetHost answers hop url hops).1 = [] ∧ (∀ before, carefulFrom web options before (vetHost answers hop url hops).1) ∧
      ((∃ refused, (vetHost answers hop url hops).2 = .error refused ∧ refused.hops = hops) ∨
        ∃ addresses, (vetHost answers hop url hops).2 = .ok addresses ∧
          ∀ before, Checked (before ++ (vetHost answers hop url hops).1) url.hostname) := by
  unfold vetHost
  split
  · rename_i hliteral
    dsimp only
    split
    · exact ⟨rfl,fun _ => trivial,Or.inl ⟨_,rfl,rfl⟩⟩
    · rename_i hallowed
      exact ⟨rfl,fun _ => trivial,Or.inr ⟨_,rfl,fun _ => Or.inl ⟨hliteral,by simpa using hallowed⟩⟩⟩
  · refine ⟨rfl,fun _ => trivial,?_⟩
    dsimp only
    cases hanswer : answers.resolve hop url.hostname with
    | error message => exact Or.inl ⟨_,rfl,rfl⟩
    | ok addresses =>
      dsimp only
      split
      · exact Or.inl ⟨_,rfl,rfl⟩
      · rename_i hnonempty
        split
        · exact Or.inl ⟨_,rfl,rfl⟩
        · rename_i hnone
          exact Or.inr ⟨_,rfl,fun before => Or.inr ⟨before,addresses,rfl,by simpa using hnonempty,refusedAddress_none hnone⟩⟩

theorem length_reducedText (reduced : Text) : (reducedText reduced).length ≤ fetchUrlTextMaxChars := by
  have hmarker : fetchUrlTruncationMarker.length ≤ fetchUrlTextMaxChars := by decide
  unfold reducedText
  split
  · rw [List.length_append, List.length_take]
    omega
  · rename_i hshort
    exact Nat.le_of_not_lt hshort

/-- What a response that is no redirect comes to keeps the hops, and its text is short. -/
theorem readResponse_spec {now : Text} {response : Response} {result : FetchUrlResult}
    (h : readResponse web options now rawUrl method current response hops = .ok result) :
    hopsOf result = hops ∧ ∀ fetched, result = .ok fetched → fetched.text.length ≤ fetchUrlTextMaxChars := by
  unfold readResponse at h
  dsimp only at h
  split at h
  · cases h
    exact ⟨rfl,fun _ hok => by cases hok⟩
  · split at h
    · cases h
      exact ⟨rfl,fun _ hok => by cases hok⟩
    · split at h
      · cases h
        refine ⟨rfl,fun fetched hok => ?_⟩
        cases hok
        exact Nat.zero_le _
      · split at h
        · cases h
        · cases h
          refine ⟨rfl,fun fetched hok => ?_⟩
          cases hok
          exact length_reducedText _

theorem redirected_cases (web : Web) (options : FetchUrlOptions) (rawUrl : Text) (left : ℕ) (current : WebUrl)
    (response : Response) (hops : List FetchHop) :
    (∃ refused, redirected web options rawUrl left current response hops = .error refused ∧ refused.hops = hops) ∨
      ∃ url, redirected web options rawUrl left current response hops = .ok url ∧ Vetted web options url := by
  unfold redirected
  split
  · exact Or.inl ⟨_,rfl,rfl⟩
  · split
    · exact Or.inl ⟨_,rfl,rfl⟩
    · split
      · exact Or.inl ⟨_,rfl,rfl⟩
      · split
        · exact Or.inl ⟨_,rfl,rfl⟩
        · rename_i hvet
          exact Or.inr ⟨_,rfl,vet_ok hvet⟩

end Steps

section Runs

/-- What the hops from here on come to. -/
structure Careful (web : Web) (options : FetchUrlOptions) (left : ℕ) (hops : List FetchHop) (before : List Effect)
    (outcome : List Effect × Except Text FetchUrlResult) : Prop where
  permitted : carefulFrom web options before outcome.1
  bounded : (sent outcome.1).length ≤ left
  recorded : ∀ result, outcome.2 = .ok result → hopNames (hopsOf result) = hopNames hops ++ sent outcome.1
  short : ∀ fetched, outcome.2 = .ok (.ok fetched) → fetched.text.length ≤ fetchUrlTextMaxChars

theorem sent_append (a b : List Effect) : sent (a ++ b) = sent a ++ sent b := List.filterMap_append

theorem careful_refused {refused : FetchUrlRefused} (hasked : carefulFrom web options before asked)
    (hbound : (sent asked).length ≤ left) (hhops : hopNames refused.hops = hopNames hops ++ sent asked) :
    Careful web options left hops before (asked,.ok (.error refused)) := by
  refine ⟨hasked,hbound,?_,?_⟩
  · intro result hresult
    cases hresult
    exact hhops
  · intro fetched hfetched
    cases hfetched

theorem fetchHops_careful (hmethod : method ∈ fetchUrlMethods) (left hop : ℕ) (current : WebUrl) (hops : List FetchHop)
    (before : List Effect) (hvetted : Vetted web options current) :
    Careful web options left hops before (fetchHops web options answers rawUrl method left hop current hops) := by
  induction left generalizing hop current hops before with
  | zero => exact careful_refused trivial (Nat.le_refl 0) (List.append_nil _).symm
  | succ left ih =>
    obtain ⟨hnothing,hcareful,hvet⟩ := vetHost_cases web options answers hop current hops
    unfold fetchHops
    generalize vetHost answers hop current hops = vetted at hnothing hcareful hvet
    obtain ⟨asked,found⟩ := vetted
    dsimp only at hnothing hcareful hvet
    rcases hvet with ⟨refused,rfl,hrefused⟩ | ⟨addresses,rfl,hchecked⟩
    · dsimp only
      refine careful_refused (hcareful before) (by rw [hnothing]; exact Nat.zero_le _) ?_
      rw [hnothing, hrefused, List.append_nil]
    · dsimp only
      have hsend : carefulFrom web options before (asked ++ [.send current method (text "manual")]) :=
        (carefulFrom_append before asked _).mpr ⟨hcareful before,⟨hmethod,rfl,hvetted,hchecked before⟩,trivial⟩
      have hone : sent (asked ++ [.send current method (text "manual")]) = [(current.href,current.hostname)] := by
        rw [sent_append, hnothing]
        rfl
      have hrecord : ∀ status, hopNames (hops ++ [⟨current.href,current.hostname,addresses,status⟩]) =
          hopNames hops ++ sent (asked ++ [.send current method (text "manual")]) := by
        intro status
        rw [hone]
        exact List.map_append
      have hbound : (sent (asked ++ [.send current method (text "manual")])).length ≤ left + 1 := by
        rw [hone]
        exact Nat.le_add_left 1 left
      cases answers.respond hop current.href with
      | error failure =>
        obtain ⟨aborted,message⟩ := failure
        exact careful_refused hsend hbound (hrecord none)
      | ok response =>
        dsimp only
        split
        · rcases redirected_cases web options rawUrl left current response
            (hops ++ [⟨current.href,current.hostname,addresses,some response.status⟩]) with
            ⟨refused,heq,hrefused⟩ | ⟨url,heq,hnext⟩
          · rw [heq]
            refine careful_refused hsend hbound ?_
            rw [hrefused]
            exact hrecord _
          · rw [heq]
            dsimp only
            obtain ⟨hpermitted,hlater,hrecorded,hshort⟩ := ih (hop + 1) url
              (hops ++ [⟨current.href,current.hostname,addresses,some response.status⟩])
              (before ++ (asked ++ [.send current method (text "manual")])) hnext
            refine ⟨(carefulFrom_append before _ _).mpr ⟨hsend,hpermitted⟩,?_,?_,hshort⟩
            · rw [sent_append, List.length_append, hone]
              exact Nat.le_trans (Nat.add_le_add_left hlater 1) (Nat.add_comm 1 left).le
            · intro result hresult
              rw [hrecorded result hresult, hrecord, List.append_assoc, ← sent_append]
        · refine ⟨hsend,hbound,?_,?_⟩
          · intro result hresult
            rw [(readResponse_spec hresult).1]
            exact hrecord _
          · intro fetched hfetched
            exact (readResponse_spec hfetched).2 fetched rfl

/-- Whatever the network answers, each request is permitted after what was asked before it, there is one hop for
each, and the text that comes back is short. -/
theorem fetchUrl_sends_vetted (web : Web) (answers : Answers) (rawUrl method : Text) (options : FetchUrlOptions) :
    let outcome := fetchUrl web answers rawUrl method options
    (∀ before url method redirect later, outcome.1 = before ++ .send url method redirect :: later →
      Permitted web options before url method redirect) ∧
    (sent outcome.1).length ≤ options.maxRedirects + 1 ∧
    (∀ result, outcome.2 = .ok result → hopNames (hopsOf result) = sent outcome.1) ∧
    ∀ fetched, outcome.2 = .ok (.ok fetched) → fetched.text.length ≤ fetchUrlTextMaxChars := by
  have hcareful : Careful web options (options.maxRedirects + 1) [] [] (fetchUrl web answers rawUrl method options) := by
    unfold fetchUrl
    dsimp only
    split
    · exact careful_refused trivial (Nat.zero_le _) rfl
    · rename_i hmethod
      cases hvet : vet web rawUrl options.allowlist (deniedHosts options) with
      | error refused =>
        refine careful_refused trivial (Nat.zero_le _) ?_
        have hhops : refused.hops = [] := by
          unfold vet at hvet
          repeat' split at hvet
          all_goals cases hvet
          all_goals rfl
        rw [hhops]
        rfl
      | ok url => exact fetchHops_careful (by simpa using hmethod) _ 0 url [] [] (vet_ok hvet)
  exact ⟨permitted_of_careful hcareful.permitted,hcareful.bounded,hcareful.recorded,hcareful.short⟩

end Runs
end HermesEnterprise.Security
