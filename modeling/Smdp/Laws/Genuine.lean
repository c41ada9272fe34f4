import Smdp.Server.Step

/-!
# Smdp — a genuine notification and the certificate on file

An OtherSignedNotification brings its own certificates and verifies with none given; one that is
given must be the embedded one. `handle_notification` gives whatever certificate the order it
matched by ICCID holds, for this kind as for the other. So a genuine notification is recorded as
verified exactly when that order holds no certificate, or the embedded one
(`recordedVerified_iff`).
-/

namespace Smdp

open Interaction

variable {σ : Type} {env : Env σ} {s : AppState σ} {raw embedded : Bytes}

/-- `raw` is an OtherSignedNotification signed with the certificate `embedded` in it: it
verifies with no certificate given, and with one given exactly if it is that one. -/
structure OtherSigned (lib : Library σ) (raw embedded : Bytes) : Prop where
  kind : ∃ v, lib.verifyNotification none raw = .ok v ∧ v.isInstallationResult = false
  given : ∀ c, (∃ v, lib.verifyNotification (some c) raw = .ok v) ↔ c = embedded

/-- `raw` was recorded, as verified. -/
def RecordedVerified (s s' : AppState σ) (raw : Bytes) : Prop :=
  ∃ row, s'.store.notifications.rows = s.store.notifications.rows ++ [row] ∧ row.raw = raw
    ∧ row.verified = 1

/-- The order `raw` is matched to, if there is one, holds no certificate or the embedded
one. -/
def NoOtherOnFile (env : Env σ) (st : SqliteStore) (raw embedded : Bytes) : Prop :=
  ∀ o, matchedOrder env st raw = some o → ∀ c, o.euiccCert = some c → c = embedded

/-- The store takes the record of `raw`, as what it verified as. -/
def RecordTaken (env : Env σ) (st : SqliteStore) (raw : Bytes) : Prop :=
  ∀ v, verifiedAs env st raw = some v →
    env.faults (.recordNotification (toRecord (some v) v (matchedOrder env st raw) raw)) = none

/-- It verifies exactly if no other certificate is on file. -/
theorem verifiedAs_iff {st : SqliteStore} (hraw : OtherSigned env.library raw embedded) :
    (∃ v, verifiedAs env st raw = some v) ↔ NoOtherOnFile env st raw embedded := by
  have hok : ∀ cert, (∃ v, (env.library.verifyNotification cert raw).toOption = some v)
      ↔ ∃ v, env.library.verifyNotification cert raw = .ok v := by
    intro cert
    cases env.library.verifyNotification cert raw with
    | error e => simp [Except.toOption]
    | ok v => simp [Except.toOption]
  unfold verifiedAs NoOtherOnFile
  rw [hok]
  -- the certificate given is that of the matched order, if there is one
  cases hmatched : matchedOrder env st raw with
  | none =>
    obtain ⟨v, hv, _⟩ := hraw.kind
    exact iff_of_true ⟨v, hv⟩ (by simp)
  | some o =>
    show (∃ v, env.library.verifyNotification o.euiccCert raw = .ok v) ↔ _
    cases hcert : o.euiccCert with
    | none =>
      obtain ⟨v, hv, _⟩ := hraw.kind
      refine iff_of_true ⟨v, hv⟩ ?_
      rintro o' ho' c hc
      cases ho'
      rw [hcert] at hc
      cases hc
    | some c =>
      rw [hraw.given c]
      constructor
      · rintro rfl o' ho' c' hc'
        cases ho'
        exact Option.some.inj (hc'.symm.trans hcert)
      · intro hfile
        exact hfile o rfl c hcert

/-- **A genuine notification is recorded as verified exactly if no other certificate is on file for
its ICCID**, and the store takes the record. The certificate of the order it matches is handed to
the library, though the notification brings its own, and where the two differ the library says no.
-/
theorem recordedVerified_iff (config : ServerConfig) (s : AppState σ)
    (hraw : OtherSigned env.library raw embedded) :
    RecordedVerified s (serve (Command.program config) AppState.perform s
        (.handleNotification ⟨raw⟩) env).post raw
      ↔ NoOtherOnFile env s.store raw embedded ∧ RecordTaken env s.store raw := by
  have step := serves_serve (Command.program config) AppState.perform s
    (.handleNotification ⟨raw⟩) env
  obtain ⟨_, hpost⟩ := serving_handleNotification step rfl
  change _ = { s with store := notifiedStore env s.store raw } at hpost
  rw [hpost, ← verifiedAs_iff hraw]
  unfold RecordedVerified RecordTaken
  dsimp only
  cases hverified : verifiedAs env s.store raw with
  | none =>
    -- what is recorded then is not verified
    refine iff_of_false ?_ (by simp)
    rintro ⟨row, hrows, _, hone⟩
    cases hm : (env.library.notificationMetadata raw).toOption with
    | none =>
      have hnothing : (verifiedAs env s.store raw).or
          (env.library.notificationMetadata raw).toOption = none := by rw [hverified, hm]; rfl
      rw [notifications_notified_of_none hnothing] at hrows
      simp at hrows
    | some m =>
      have hmade : (verifiedAs env s.store raw).or
          (env.library.notificationMetadata raw).toOption = some m := by rw [hverified, hm]; rfl
      rw [notifications_notified hmade, SqliteStore.rows_after_recordNotification, hverified]
        at hrows
      have hadded := List.append_cancel_left hrows
      split at hadded
      · obtain rfl := List.singleton_injective hadded
        cases hone
      · cases hadded
  | some v =>
    have hmade : (verifiedAs env s.store raw).or
        (env.library.notificationMetadata raw).toOption = some v := by rw [hverified]; rfl
    rw [notifications_notified hmade, SqliteStore.rows_after_recordNotification, hverified]
    constructor
    · rintro ⟨row, hrows, _⟩
      refine ⟨⟨v, rfl⟩, ?_⟩
      rintro v' hv'
      obtain rfl := Option.some.inj hv'
      have hadded := List.append_cancel_left hrows
      by_contra hfault
      rw [if_neg hfault] at hadded
      cases hadded
    · rintro ⟨_, htaken⟩
      rw [if_pos (htaken v rfl)]
      exact ⟨_, rfl, rfl, rfl⟩

/-! ## A late notification -/

/-- A notification that Profile 7 was deleted, with the certificate `signer` in it. -/
def deleted (signer : UInt8) : Bytes := [signer, 2, 0] ++ List.replicate 10 7

/-- The echoing library, for OtherSignedNotifications: the signer's certificate is in the
notification. -/
def Library.otherSigned : Library Bytes
  | .dpNotificationMetadata notification =>
    (readEcho notification).map fun p => { p.2 with isInstallationResult := 0, operation := 3 }
  | .dpVerifyNotification certEuicc notification =>
    match readEcho notification with
    | .error code => .error code
    | .ok (signer, v) =>
      if certEuicc = none ∨ certEuicc = some [signer] then
        .ok { v with isInstallationResult := 0, operation := 3 }
      else
        .error (-1)
  | c => Library.echo c

def Env.otherSigned : Env Bytes := { Env.echo 0 with library := Library.otherSigned }

theorem otherSigned_deleted (signer : UInt8) :
    OtherSigned Library.otherSigned (deleted signer) [signer] := by
  have hread : readEcho (deleted signer)
      = .ok (signer, ⟨1, 2, 0, 1, ⟨List.replicate 10 7, rfl⟩, 0⟩) := rfl
  constructor
  · unfold Library.verifyNotification Library.otherSigned
    simp only [hread, true_or, if_true]
    exact ⟨_, rfl, rfl⟩
  · intro c
    unfold Library.verifyNotification Library.otherSigned
    simp only [hread, Option.some.injEq, reduceCtorEq, false_or]
    by_cases hc : c = [signer]
    · rw [if_pos hc]
      exact iff_of_true ⟨_, rfl⟩ hc
    · rw [if_neg hc]
      refine iff_of_false ?_ hc
      rintro ⟨v, hv⟩
      cases hv

/-- The order is downloaded by `A`, reset, and downloaded by `B`. -/
def downloadedTwice : List (Command × Env Bytes) :=
  [(addProfile 7 "A", .echo 0), (initiate, .echo 1), (authenticate 1 [65], .echo 0),
   (download 1, .echo 0), (.orderReset 1, .echo 0), (initiate, .echo 2),
   (authenticate 2 [66], .echo 0), (download 2, .echo 0)]

theorem recordedVerified_iff_downloadedTwice :
    RecordedVerified (echoedState downloadedTwice)
        (echoedNext downloadedTwice (.handleNotification ⟨deleted 66⟩) .otherSigned).post
        (deleted 66)
      ↔ NoOtherOnFile .otherSigned (echoedState downloadedTwice).store (deleted 66) [66]
          ∧ RecordTaken .otherSigned (echoedState downloadedTwice).store (deleted 66) :=
  recordedVerified_iff _ _ (otherSigned_deleted 66)

/-- `A` says late that it deleted the Profile. `B` is on file by then, so that is recorded as
unverified. -/
theorem genuine_unverified :
    ¬ ∀ (config : ServerConfig) (h : List (Step (AppState Bytes) (Event Bytes)))
        (s : AppState Bytes) (env : Env Bytes) (raw embedded : Bytes), ServerRun config h s →
        NoFaults h → env.faults = StoreFaults.none → OtherSigned env.library raw embedded →
        RecordedVerified s (serve (Command.program config) AppState.perform s
          (.handleNotification ⟨raw⟩) env).post raw := by
  intro hall
  have hfaults : NoFaults (echoed downloadedTwice) :=
    noFaults_echoed (by simp [downloadedTwice, Env.echo])
  obtain ⟨row, hrows, _, hverified⟩ := hall _ _ _ .otherSigned (deleted 65) [65]
    (run_echoed downloadedTwice) hfaults rfl (otherSigned_deleted 65)
  have hrecorded : (echoedNext downloadedTwice (.handleNotification ⟨deleted 65⟩)
      .otherSigned).post.store.notifications.rows.map NotificationRow.verified = [0] := by decide
  have hbefore : (echoedState downloadedTwice).store.notifications.rows = [] := rfl
  rw [hbefore] at hrows
  have hone := (congrArg (List.map NotificationRow.verified) hrows).symm.trans hrecorded
  simp [hverified] at hone

end Smdp
