/- FffChain/App/Login
   source: libraries/app/api.cpp, lines 48-136
   digest: login_api::login looks the user up, checks the password against the
   stored salted sha256 hash unless that is "*", and then enables by name each
   API the user is allowed. On every sequence of logins on a connection, an
   API's accessor hands out its handle exactly when some accepted login on it
   allowed that API: a refused login changes nothing, and no login takes an
   API away. -/

import Mathlib.Logic.Function.Basic
import Mathlib.Data.List.Basic

set_option autoImplicit false
set_option relaxedAutoImplicit false

namespace FffChain.App.Login

/-- The APIs a login_api hands out. -/
inductive Api
  | database | networkBroadcast | history | networkNode | crypto | messaging | monitoring
deriving DecidableEq, Repr

/-- The APIs in the order login_api::enable_api compares their names. -/
def Api.tested : List Api := [.database, .networkBroadcast, .history, .networkNode, .crypto, .messaging, .monitoring]

theorem Api.mem_tested (a : Api) : a ∈ Api.tested := by cases a <;> decide

/-- The fields of api_access_info (whose header is not in the sources) that
login reads. -/
structure ApiAccessInfo where
  passwordHashB64 : String
  passwordSaltB64 : String
  allowedApis : List String

/-- The API handles of a login_api, by whether each is set. -/
structure LoginApi where
  handles : Api → Bool

/-- A login_api as constructed: no handle is set. -/
def LoginApi.init : LoginApi := ⟨fun _ => false⟩

/-- The handle of one API set. -/
def LoginApi.set (l : LoginApi) (a : Api) : LoginApi := ⟨Function.update l.handles a true⟩

/-- The error of an API accessor whose handle is not set. -/
inductive ApiError
  | apiNotAvailable
deriving DecidableEq, Repr

/-- The accessors of login_api: the handle, or api_not_available_exception
when it is not set. -/
def LoginApi.api (l : LoginApi) (a : Api) : Except ApiError Api :=
  if l.handles a then .ok a else .error .apiNotAvailable

/-- login_api::network_broadcast. -/
def LoginApi.networkBroadcast (l : LoginApi) : Except ApiError Api := l.api .networkBroadcast
/-- login_api::network_node. -/
def LoginApi.networkNode (l : LoginApi) : Except ApiError Api := l.api .networkNode
/-- login_api::database. -/
def LoginApi.database (l : LoginApi) : Except ApiError Api := l.api .database
/-- login_api::history. -/
def LoginApi.history (l : LoginApi) : Except ApiError Api := l.api .history
/-- login_api::crypto. -/
def LoginApi.crypto (l : LoginApi) : Except ApiError Api := l.api .crypto
/-- login_api::messaging. -/
def LoginApi.messaging (l : LoginApi) : Except ApiError Api := l.api .messaging
/-- login_api::monitoring. -/
def LoginApi.monitoring (l : LoginApi) : Except ApiError Api := l.api .monitoring

section Login

/-! The application's access table (application::get_api_access_info), the
decoding and hashing login uses, and each API's get_api_name(): none of them
is in the sources. -/

variable (getApiAccessInfo : String → Option ApiAccessInfo) (base64Decode : String → List UInt8)
  (sha256 : List UInt8 → List UInt8) (getApiName : Api → String)

/-- login_api::enable_api: the first API, in the order the code tests them,
whose name is api_name gets its handle; an unknown name changes nothing. -/
def enableApi (l : LoginApi) (apiName : String) : LoginApi :=
  match Api.tested.find? fun a => apiName = getApiName a with
  | some a => l.set a
  | none => l

/-- The password check of login: the salted sha256 hash of the password against the stored one, by length
and then by memcmp over the hash's length. -/
def passwordMatches (acc : ApiAccessInfo) (password : List UInt8) : Bool :=
  let hashObj := sha256 (password ++ base64Decode acc.passwordSaltB64)
  let accPasswordHash := base64Decode acc.passwordHashB64
  hashObj.length == accPasswordHash.length && hashObj == accPasswordHash.take hashObj.length

/-- login_api::login: its result, and the login_api it leaves. -/
def login (l : LoginApi) (user : String) (password : List UInt8) : Bool × LoginApi :=
  match getApiAccessInfo user with
  | none => (false, l)
  | some acc =>
    if acc.passwordHashB64 ≠ "*" ∧ passwordMatches base64Decode sha256 acc password = false then (false, l)
    else (true, acc.allowedApis.foldl (enableApi getApiName) l)

/-- The logins of one connection, each a user and a password, in order. -/
def loginAll (l : LoginApi) (calls : List (String × List UInt8)) : LoginApi :=
  calls.foldl (fun l call => (login getApiAccessInfo base64Decode sha256 getApiName l call.1 call.2).2) l

/-- A login is accepted for access info whose stored hash is "*" or the
salted sha256 hash of the password. -/
def Accepted (acc : ApiAccessInfo) (password : List UInt8) : Prop :=
  acc.passwordHashB64 = "*" ∨ sha256 (password ++ base64Decode acc.passwordSaltB64) = base64Decode acc.passwordHashB64

theorem passwordMatches_iff (acc : ApiAccessInfo) (password : List UInt8) :
    passwordMatches base64Decode sha256 acc password = true ↔
      sha256 (password ++ base64Decode acc.passwordSaltB64) = base64Decode acc.passwordHashB64 := by
  simp only [passwordMatches, Bool.and_eq_true, beq_iff_eq]
  constructor
  · rintro ⟨sameLength, same⟩
    rwa [sameLength, List.take_length] at same
  · rintro same
    rw [same, List.take_length]
    exact ⟨rfl, rfl⟩

variable {getApiName}

theorem enableApi_handles (distinct : Function.Injective getApiName) (l : LoginApi) (apiName : String) (a : Api) :
    (enableApi getApiName l apiName).handles a = true ↔ l.handles a = true ∨ apiName = getApiName a := by
  unfold enableApi
  split
  · next b found =>
    have named : apiName = getApiName b := by simpa using List.find?_some found
    simp only [LoginApi.set, Function.update_apply, named]
    by_cases same : a = b
    · simp [same]
    · have other : getApiName b ≠ getApiName a := fun h => same (distinct h).symm
      simp [same, other]
  · next absent =>
    have unnamed := List.find?_eq_none.1 absent a (Api.mem_tested a)
    simp only [decide_eq_true_eq] at unnamed
    simp [unnamed]

theorem foldl_enableApi_handles (distinct : Function.Injective getApiName) (allowed : List String) (l : LoginApi)
    (a : Api) :
    (allowed.foldl (enableApi getApiName) l).handles a = true ↔ l.handles a = true ∨ getApiName a ∈ allowed := by
  induction allowed generalizing l with
  | nil => simp
  | cons name rest ih =>
    rw [List.foldl_cons, ih, enableApi_handles distinct, List.mem_cons, eq_comm]
    tauto

theorem login_handles (distinct : Function.Injective getApiName) (l : LoginApi) (user : String)
    (password : List UInt8) (a : Api) :
    (login getApiAccessInfo base64Decode sha256 getApiName l user password).2.handles a = true ↔
      l.handles a = true ∨ ∃ acc, getApiAccessInfo user = some acc ∧ Accepted base64Decode sha256 acc password ∧
        getApiName a ∈ acc.allowedApis := by
  unfold login
  split
  · next absent => simp [absent]
  · next acc found =>
    have accepted : ¬(acc.passwordHashB64 ≠ "*" ∧ passwordMatches base64Decode sha256 acc password = false) ↔
        Accepted base64Decode sha256 acc password := by
      rw [Accepted, ← passwordMatches_iff]
      cases passwordMatches base64Decode sha256 acc password <;> simp only [not_and, not_not] <;> tauto
    simp only [found, Option.some.injEq, exists_eq_left']
    split
    · next refused =>
      have : ¬Accepted base64Decode sha256 acc password := fun passes => accepted.2 passes refused
      simp [this]
    · next passed => rw [foldl_enableApi_handles distinct]; simp [accepted.1 passed]

/-- On every sequence of logins on a connection, an API's accessor hands out its handle exactly when some
accepted login allowed that API. -/
theorem loginAll_api (distinct : Function.Injective getApiName) (calls : List (String × List UInt8)) (a : Api) :
    (loginAll getApiAccessInfo base64Decode sha256 getApiName LoginApi.init calls).api a = .ok a ↔
      ∃ call ∈ calls, ∃ acc, getApiAccessInfo call.1 = some acc ∧ Accepted base64Decode sha256 acc call.2 ∧
        getApiName a ∈ acc.allowedApis := by
  have handles : ∀ (l : LoginApi) (calls : List (String × List UInt8)),
      (loginAll getApiAccessInfo base64Decode sha256 getApiName l calls).handles a = true ↔ l.handles a = true ∨
        ∃ call ∈ calls, ∃ acc, getApiAccessInfo call.1 = some acc ∧ Accepted base64Decode sha256 acc call.2 ∧
          getApiName a ∈ acc.allowedApis := by
    intro l calls
    induction calls generalizing l with
    | nil => simp [loginAll]
    | cons call rest ih =>
      rw [loginAll, List.foldl_cons, ← loginAll, ih, login_handles _ _ _ distinct]
      simp only [List.mem_cons, or_and_right, exists_or, exists_eq_left, or_assoc]
  have available : (loginAll getApiAccessInfo base64Decode sha256 getApiName LoginApi.init calls).handles a = true ↔
      ∃ call ∈ calls, ∃ acc, getApiAccessInfo call.1 = some acc ∧ Accepted base64Decode sha256 acc call.2 ∧
        getApiName a ∈ acc.allowedApis := by
    rw [handles]; simp [LoginApi.init]
  rw [← available, LoginApi.api]
  split <;> simp [*]

end Login

/-- One name for each API. -/
def sampleNames : Api → String
  | .database => "d"
  | .networkBroadcast => "b"
  | .history => "h"
  | .networkNode => "n"
  | .crypto => "c"
  | .messaging => "m"
  | .monitoring => "o"

/-- A user whose stored hash is "*" and who is allowed the history API logs in
once with an empty password. -/
theorem loginAll_api_starUser :
    Function.Injective sampleNames ∧
      ((loginAll (fun _ => some ⟨"*", "", ["h"]⟩) (fun _ => []) id sampleNames LoginApi.init [("u", [])]).api .history =
          .ok .history ↔
        ∃ call ∈ [("u", ([] : List UInt8))], ∃ acc, (fun _ => some ⟨"*", "", ["h"]⟩ : String → Option ApiAccessInfo) call.1 =
          some acc ∧ Accepted (fun _ => []) id acc call.2 ∧ sampleNames .history ∈ acc.allowedApis) :=
  have distinct : Function.Injective sampleNames := fun a b same => by
    cases a <;> cases b <;> first | rfl | simp [sampleNames] at same
  ⟨distinct, loginAll_api _ _ _ distinct _ _⟩

end FffChain.App.Login
