import Mathlib.Data.List.Induction
import Stead.Model.Statement

/-!
# The token store of the mobile client

`token-store.ts`: two tokens, each kept in the memory of the process, in the secure store of the
device and, when that fails, in a fallback. Calls come one after the other, and each read, write or
deletion in the secure store may fail.

## What fails

An access of the secure store fails before or after its effect (`Fault`), and so does a platform
without one in every access. The fallback is the local storage of the platform, or a variable where
that throws; where there is no local storage at all, it holds nothing.

## A register

Under one key the store is to be a register. Memory makes it one while a token is set. After a
deletion the token is gone from memory and from the secure store, but a deletion that succeeds
leaves the fallback alone: there a value lingers that an earlier write could not put into the secure
store, and a read that fails finds it (`token_store_register`). `Lingers` says of the calls under a
key that this is so, and it is exactly when the fallback holds something
(`isSome_getFallback_after`).
-/

namespace Stead

/-- What `globalThis.localStorage` is. -/
inductive LocalStorage where
  | present
  | absent
  /-- every access throws -/
  | throwing
  deriving DecidableEq

/-- What the store runs on. -/
structure TokenPlatform where
  /-- `hasSecureStore()` -/
  hasSecureStore : Bool
  localStorage : LocalStorage

/-- What is kept under one key. -/
structure TokenSlot where
  sessionMemory : Option String
  secureStore : Option String
  localStorage : Option String
  memoryStore : Option String
  deriving DecidableEq

namespace TokenSlot

variable (platform : TokenPlatform) (slot : TokenSlot)

/-- The fallback under a key: read, -/
def getFallback : Option String :=
  match platform.localStorage with
  | .present => slot.localStorage
  | .absent => none
  | .throwing => slot.memoryStore

/-- written -/
def setFallback (value : String) : TokenSlot :=
  match platform.localStorage with
  | .present => { slot with localStorage := some value }
  | .absent => slot
  | .throwing => { slot with memoryStore := some value }

/-- and cleared. -/
def clearFallback : TokenSlot :=
  match platform.localStorage with
  | .present => { slot with localStorage := none }
  | .absent => slot
  | .throwing => { slot with memoryStore := none }

/-- A read of the secure store, or of the fallback where it fails. -/
def readValue (failed : Bool) : Option String :=
  if !platform.hasSecureStore then slot.getFallback platform
  else if failed then slot.getFallback platform
  else slot.secureStore

/-- A write into the secure store, and into the fallback where it fails. -/
def writeValue (fault : Fault) (value : String) : TokenSlot :=
  if !platform.hasSecureStore then slot.setFallback platform value
  else
    match fault with
    | .none => { slot with secureStore := some value }
    | .before => slot.setFallback platform value
    | .after => { slot with secureStore := some value }.setFallback platform value

/-- A deletion in the secure store, and in the fallback where it fails. -/
def deleteValue (fault : Fault) : TokenSlot :=
  if !platform.hasSecureStore then slot.clearFallback platform
  else
    match fault with
    | .none => { slot with secureStore := none }
    | .before => slot.clearFallback platform
    | .after => { slot with secureStore := none }.clearFallback platform

/-- `getToken` and `getRefreshToken` -/
def get (failed : Bool) : Option String :=
  slot.sessionMemory.orElse fun _ ↦ slot.readValue platform failed

end TokenSlot

/-- What a call does under one key. -/
inductive SlotWrite where
  | set (value : String) (fault : Fault)
  | clear (fault : Fault)
  deriving DecidableEq

namespace SlotWrite

/-- A call, under the key. -/
def exec (platform : TokenPlatform) (slot : TokenSlot) : SlotWrite → TokenSlot
  | set value fault => { slot with sessionMemory := some value }.writeValue platform fault value
  | clear fault => { slot with sessionMemory := none }.deleteValue platform fault

/-- What a register holds after it. -/
def value : SlotWrite → Option String
  | set value _ => some value
  | clear _ => none

end SlotWrite

/-! ### Calls -/

/-- The keys of the store. -/
inductive TokenKey where
  /-- `stead.jwt` -/
  | accessToken
  /-- `stead.refresh` -/
  | refreshToken
  deriving DecidableEq

/-- What is kept under both. -/
structure TokenStore where
  accessToken : TokenSlot
  refreshToken : TokenSlot

/-- What is kept under a key. -/
def TokenStore.slot (store : TokenStore) : TokenKey → TokenSlot
  | .accessToken => store.accessToken
  | .refreshToken => store.refreshToken

/-- A call of the store, with what happens to its accesses of the secure store. -/
inductive TokenCall where
  | getToken (failed : Bool)
  | setToken (token : String) (fault : Fault)
  | getRefreshToken (failed : Bool)
  | setRefreshToken (refreshToken : String) (fault : Fault)
  | setSession (token refreshToken : String) (fault fault' : Fault)
  | clearToken (fault fault' : Fault)

namespace TokenCall

/-- What a call answers, where it is a get, and what it leaves. -/
def exec (platform : TokenPlatform) (store : TokenStore) : TokenCall → Option String × TokenStore
  | getToken failed => (store.accessToken.get platform failed, store)
  | setToken token fault =>
    (none, { store with accessToken := (SlotWrite.set token fault).exec platform store.accessToken })
  | getRefreshToken failed => (store.refreshToken.get platform failed, store)
  | setRefreshToken refreshToken fault =>
    (none, { store with
      refreshToken := (SlotWrite.set refreshToken fault).exec platform store.refreshToken })
  | setSession token refreshToken fault fault' =>
    (none,
      { accessToken := (SlotWrite.set token fault).exec platform store.accessToken
        refreshToken := (SlotWrite.set refreshToken fault').exec platform store.refreshToken })
  | clearToken fault fault' =>
    (none,
      { accessToken := (SlotWrite.clear fault).exec platform store.accessToken
        refreshToken := (SlotWrite.clear fault').exec platform store.refreshToken })

/-- What a call writes under a key. -/
def write (key : TokenKey) : TokenCall → Option SlotWrite
  | setToken token fault => if key = .accessToken then some (.set token fault) else none
  | setRefreshToken refreshToken fault =>
    if key = .refreshToken then some (.set refreshToken fault) else none
  | setSession token refreshToken fault fault' =>
    some (if key = .accessToken then .set token fault else .set refreshToken fault')
  | clearToken fault fault' => some (.clear (if key = .accessToken then fault else fault'))
  | _ => none

/-- The key of a get, and whether its read fails. -/
def gets : TokenCall → Option (TokenKey × Bool)
  | getToken failed => some (.accessToken, failed)
  | getRefreshToken failed => some (.refreshToken, failed)
  | _ => none

/-- Every deletion of a call succeeds. -/
def Deletes : TokenCall → Prop
  | clearToken fault fault' => fault = .none ∧ fault' = .none
  | _ => True

end TokenCall

/-- The store after calls. -/
def TokenStore.after (platform : TokenPlatform) (store : TokenStore) (calls : List TokenCall) :
    TokenStore :=
  calls.foldl (fun store call ↦ (call.exec platform store).2) store

/-- What calls write under a key. -/
def writes (key : TokenKey) (calls : List TokenCall) : List SlotWrite :=
  calls.filterMap (TokenCall.write key)

/-- What a register holds after calls, if they wrote it. -/
def register (key : TokenKey) (calls : List TokenCall) : Option (Option String) :=
  (writes key calls).getLast?.map SlotWrite.value

/-! ### One key -/

namespace TokenSlot

variable {platform : TokenPlatform} {slot : TokenSlot} {writes : List SlotWrite}

/-- What is under a key after writes. -/
def after (platform : TokenPlatform) (slot : TokenSlot) (writes : List SlotWrite) : TokenSlot :=
  writes.foldl (SlotWrite.exec platform) slot

/-- One call after the others. -/
theorem after_append (w : SlotWrite) : slot.after platform (writes ++ [w]) =
    w.exec platform (slot.after platform writes) := by
  rw [after, List.foldl_append]
  rfl

@[simp] theorem sessionMemory_setFallback (value : String) :
    (slot.setFallback platform value).sessionMemory = slot.sessionMemory := by
  unfold setFallback
  split <;> rfl

@[simp] theorem sessionMemory_clearFallback :
    (slot.clearFallback platform).sessionMemory = slot.sessionMemory := by
  unfold clearFallback
  split <;> rfl

@[simp] theorem getFallback_clearFallback :
    (slot.clearFallback platform).getFallback platform = none := by
  unfold clearFallback getFallback
  split <;> rfl

theorem getFallback_setFallback (value : String) :
    (slot.setFallback platform value).getFallback platform =
      if platform.localStorage = .absent then none else some value := by
  unfold setFallback getFallback
  cases platform.localStorage <;> rfl

/-- Memory holds what a register would. -/
theorem sessionMemory_exec (w : SlotWrite) :
    (w.exec platform slot).sessionMemory = w.value := by
  cases w with
  | set value fault =>
    simp only [SlotWrite.exec, writeValue, SlotWrite.value]
    split
    · simp
    · cases fault <;> simp
  | clear fault =>
    simp only [SlotWrite.exec, deleteValue, SlotWrite.value]
    split
    · simp
    · cases fault <;> simp

/-- A value that could not be put into the secure store, or that was in the fallback from the
start. -/
def Lingers (platform : TokenPlatform) (slot : TokenSlot) (writes : List SlotWrite) : Prop :=
  (slot.getFallback platform).isSome ∨
    platform.localStorage ≠ .absent ∧ ∃ value fault, .set value fault ∈ writes ∧ fault ≠ .none

/-- What one write does to the fallback of a device with a secure store, if its deletions
succeed. -/
theorem isSome_getFallback_exec (hsecure : platform.hasSecureStore = true) {w : SlotWrite}
    (hw : ∀ fault, w = .clear fault → fault = .none) :
    ((w.exec platform slot).getFallback platform).isSome ↔
      (slot.getFallback platform).isSome ∨
        platform.localStorage ≠ .absent ∧ ∃ value fault, w = .set value fault ∧ fault ≠ .none := by
  cases w with
  | set value fault =>
    have habsent : platform.localStorage = .absent → slot.getFallback platform = none := by
      intro h
      rw [getFallback, h]
    cases fault <;>
      simp [SlotWrite.exec, writeValue, hsecure, getFallback_setFallback] <;> grind [getFallback]
  | clear fault =>
    cases hw fault rfl
    simp [SlotWrite.exec, deleteValue, hsecure, getFallback]

/-- **The fallback** holds what lingers. -/
theorem isSome_getFallback_after (hsecure : platform.hasSecureStore = true)
    (hdeletes : ∀ fault, .clear fault ∈ writes → fault = .none) :
    ((slot.after platform writes).getFallback platform).isSome ↔ slot.Lingers platform writes := by
  induction writes using List.reverseRecOn with
  | nil => simp [after, Lingers]
  | append_singleton writes w ih =>
    rw [after_append, isSome_getFallback_exec hsecure fun fault hw ↦ hdeletes fault (by simp [hw]),
      ih fun fault hf ↦ hdeletes fault (List.mem_append_left _ hf)]
    simp only [Lingers, List.mem_append, List.mem_singleton]
    grind

/-- **A get after writes** answers as a register would, unless a read fails after a deletion and
finds what lingers. -/
theorem get_after (hdeletes : ∀ fault, .clear fault ∈ writes → fault = .none) {w : SlotWrite}
    (hlast : writes.getLast? = some w) (failed : Bool) :
    (slot.after platform writes).get platform failed = w.value ↔
      (failed = true → w.value = none →
        ¬ (platform.hasSecureStore = true ∧ slot.Lingers platform writes)) := by
  obtain ⟨rest, rfl⟩ := List.getLast?_eq_some_iff.1 hlast
  have hmemory : (slot.after platform (rest ++ [w])).sessionMemory = w.value := by
    rw [after_append, sessionMemory_exec]
  unfold get
  rw [hmemory]
  cases w with
  | set value fault => simp [SlotWrite.value]
  | clear fault =>
    cases hdeletes fault (by simp)
    simp only [SlotWrite.value, Option.orElse_none, readValue]
    cases hsecure : platform.hasSecureStore with
    | false => simp [after_append, SlotWrite.exec, deleteValue, hsecure]
    | true =>
      cases failed with
      | false => simp [after_append, SlotWrite.exec, deleteValue, hsecure]
      | true =>
        rw [← isSome_getFallback_after hsecure hdeletes]
        simp

end TokenSlot

/-! ### Both keys -/

section Calls

variable {platform : TokenPlatform} {store : TokenStore} {key : TokenKey} {failed : Bool}
  {calls : List TokenCall}

theorem slot_exec (call : TokenCall) : (call.exec platform store).2.slot key =
    (store.slot key).after platform (call.write key).toList := by
  cases call <;> cases key <;> rfl

/-- A read answers what is kept under its key. -/
theorem answer_of_gets {call : TokenCall} (h : call.gets = some (key, failed)) :
    (call.exec platform store).1 = (store.slot key).get platform failed := by
  cases call <;> cases h <;> rfl

/-- **The keys are apart.** -/
theorem slot_after (calls : List TokenCall) : (store.after platform calls).slot key =
    (store.slot key).after platform (writes key calls) := by
  induction calls generalizing store with
  | nil => rfl
  | cons call calls ih =>
    have hwrites : writes key (call :: calls) = (call.write key).toList ++ writes key calls := by
      unfold writes
      cases h : call.write key <;> simp [h]
    rw [hwrites, TokenSlot.after, List.foldl_append]
    show ((call.exec platform store).2.after platform calls).slot key = _
    rw [ih, slot_exec]
    rfl

/-- Every deletion under a key succeeds. -/
theorem fault_of_deletes (hdeletes : ∀ call ∈ calls, call.Deletes) {fault : Fault}
    (h : .clear fault ∈ writes key calls) : fault = .none := by
  obtain ⟨call, hcall, hwrite⟩ := List.mem_filterMap.1 h
  have hfaults := hdeletes call hcall
  cases call with
  | clearToken fault₁ fault₂ =>
    obtain ⟨rfl, rfl⟩ := hfaults
    simpa [TokenCall.write, eq_comm] using hwrite
  | _ => grind [TokenCall.write]

/-- **A register**, as long as nothing lingers where a read fails. Where every deletion succeeds, each
get answers what its token was last set to, or `null` when a clear came after that, if and only if no
get whose read fails comes after a clear while a value of its token lingers in the fallback. -/
theorem token_store_register (platform : TokenPlatform) (store : TokenStore)
    (calls : List TokenCall) (hdeletes : ∀ call ∈ calls, call.Deletes) :
    (∀ before call after key failed value, calls = before ++ call :: after →
      call.gets = some (key, failed) → register key before = some value →
        (call.exec platform (store.after platform before)).1 = value) ↔
    ∀ before call after key, calls = before ++ call :: after → call.gets = some (key, true) →
      register key before = some none →
        ¬ (platform.hasSecureStore = true ∧
          (store.slot key).Lingers platform (writes key before)) := by
  have hget : ∀ before call after key failed value, calls = before ++ call :: after →
      call.gets = some (key, failed) → register key before = some value →
        ((call.exec platform (store.after platform before)).1 = value ↔
          (failed = true → value = none → ¬ (platform.hasSecureStore = true ∧
            (store.slot key).Lingers platform (writes key before)))) := by
    rintro before call after key failed value rfl hgets hregister
    obtain ⟨w, hlast, rfl⟩ := Option.map_eq_some_iff.1 hregister
    rw [answer_of_gets hgets, slot_after]
    exact TokenSlot.get_after (fun fault ↦ fault_of_deletes
      fun call hcall ↦ hdeletes call (List.mem_append_left _ hcall)) hlast failed
  constructor
  · intro hall before call after key hcalls hgets hregister
    exact (hget before call after key true none hcalls hgets hregister).1
      (hall before call after key true none hcalls hgets hregister) rfl rfl
  · intro hcond before call after key failed value hcalls hgets hregister
    refine (hget before call after key failed value hcalls hgets hregister).2 fun hfailed hvalue ↦ ?_
    subst hfailed hvalue
    exact hcond before call after key hcalls hgets hregister

end Calls

/-! ### A token that comes back -/

namespace Demo

/-- A device with a secure store and a local storage. -/
def phone : TokenPlatform := ⟨true, .present⟩

/-- Nothing is stored. -/
def noTokens : TokenStore := ⟨⟨none, none, none, none⟩, ⟨none, none, none, none⟩⟩

/-- A sign-in whose first write fails, and a logout. -/
def signInAndOut : List TokenCall :=
  [.setSession "access" "refresh" .before .none, .clearToken .none .none]

end Demo

open Demo

/-- The refresh token, whose write did not fail, stays away. -/
theorem token_store_register_refresh :
    ((TokenCall.getRefreshToken true).exec phone (noTokens.after phone signInAndOut)).1 = none := by
  refine (token_store_register phone noTokens (signInAndOut ++ [.getRefreshToken true])
    (by simp [signInAndOut, TokenCall.Deletes])).2 ?_ signInAndOut _ [] .refreshToken true none rfl
    rfl rfl
  intro before call after key hcalls hgets hregister
  have hlast : before = signInAndOut ∧ call = .getRefreshToken true := by
    rcases before with _ | ⟨first, _ | ⟨second, _ | ⟨third, before⟩⟩⟩ <;>
      simp only [signInAndOut, List.cons_append, List.nil_append, List.cons.injEq] at hcalls
    · rw [← hcalls.1] at hgets
      cases hgets
    · rw [← hcalls.2.1] at hgets
      cases hgets
    · obtain ⟨rfl, rfl, rfl, -⟩ := hcalls
      exact ⟨rfl, rfl⟩
    · simp at hcalls
  obtain ⟨rfl, rfl⟩ := hlast
  cases hgets
  simp [TokenSlot.Lingers, signInAndOut, writes, TokenCall.write, noTokens, TokenStore.slot,
    TokenSlot.getFallback, phone]

/-- The access token is cleared and comes back. -/
theorem cleared_token_reappears :
    (∀ call ∈ signInAndOut ++ [.getToken true], call.Deletes) ∧
    register .accessToken signInAndOut = some none ∧
    ((TokenCall.getToken true).exec phone (noTokens.after phone signInAndOut)).1 = some "access" :=
  ⟨by simp [signInAndOut, TokenCall.Deletes], rfl, rfl⟩

end Stead
