import Smdp.Server.Step

/-!
# Smdp — an installation result is credited to the download it reports

A notification names a Profile by its ICCID and nothing else, and `order_by_iccid` returns
the first order that carries it. That order decides both whose certificate the notification
is checked against and which order moves. So a result is credited to the order it reports
exactly when that order is the first one filed under the ICCID, and the store takes the writes
(`credited_iff_first`): not when an older order of the same Profile is still there, nor when
the order was filed under another ICCID than its metadata's.
-/

namespace Smdp

open Interaction Rowid

variable {σ : Type}

/-! ## The situation -/

/-- `o` was handed out to the eUICC whose certificate is `c`, and its Profile is the one with
the ICCID `i`. -/
structure HandedOutTo (st : SqliteStore) (o : Order) (c : Bytes) (i : Iccid) : Prop where
  row : st.orders.row? o.id = some o.toRow
  state : o.state = .downloaded
  cert : o.euiccCert = some c
  iccid : iccidFromMetadata o.metadata = .ok (.ok i)

/-- `raw` is a ProfileInstallationResult that carries the ICCID `i`, says `v`, and verifies
against the certificate `c` and no other. -/
structure ReportsInstall (lib : Library σ) (raw c : Bytes) (i : Iccid) (v : Notification) :
    Prop where
  metadata : ∃ n, lib.notificationMetadata raw = .ok n ∧ n.iccid = some i
  result : v.isInstallationResult = true
  verifies : lib.verifyNotification (some c) raw = .ok v
  only : ∀ cert, cert ≠ some c → ∃ e, lib.verifyNotification cert raw = .error e

/-- The result was recorded as verified for `o`, `o` was set to what it says, and no other
order changed. -/
structure Credited (s s' : AppState σ) (o : Order) (v : Notification) (raw : Bytes) : Prop where
  recorded : ∃ row, s'.store.notifications.rows = s.store.notifications.rows ++ [row]
    ∧ row.raw = raw ∧ row.verified = 1 ∧ row.orderId = some o.id
  moved : s'.store.orders.row? o.id = some { o with state := v.verdict }.toRow
  others : ∀ j, j ≠ o.id → s'.store.orders.row? j = s.store.orders.row? j

/-- `o` is filed under `i`, and no order before it is. -/
def FirstOfIccid (st : SqliteStore) (o : Order) (i : Iccid) : Prop :=
  o.iccid = i ∧ ∀ r ∈ st.orders.rows, r.id < o.id → r.iccid ≠ i.val

/-- The store answers the look-up and takes both writes, or finds `o` as the result says. -/
structure StoreTakes (faults : StoreFaults) (o : Order) (i : Iccid) (v : Notification)
    (raw : Bytes) : Prop where
  lookup : faults (.orderByIccid i) = none
  record : faults (.recordNotification (toRecord (some v) v (some o) raw)) = none
  move : faults (.setState o.id v.verdict) = none ∨ o.state = v.verdict

/-! ## Which order is matched -/

/-- **The order matched is the first one filed under the ICCID**, if the look-up succeeds. -/
theorem matchedOrder_eq_some {env : Env σ} {st : SqliteStore} {raw : Bytes} {i : Iccid}
    {n : Notification} {o : Order} (hmeta : env.library.notificationMetadata raw = .ok n)
    (hiccid : n.iccid = some i) :
    matchedOrder env st raw = some o
      ↔ env.faults (.orderByIccid i) = none ∧ st.orders.row? o.id = some o.toRow
        ∧ FirstOfIccid st o i := by
  have hfind := st.orders.find?_eq_some_iff (r := o.toRow) fun r => decide (r.iccid = i.val)
  have hfiled : o.toRow.iccid = i.val ↔ o.iccid = i := Subtype.ext_iff.symm
  have hquery : matchedOrder env st raw = some o
      ↔ (st.performUnder env.faults (.orderByIccid i)).1 = .ok (some o) := by
    rw [matchedOrder_eq_some_iff, hmeta]
    constructor
    · rintro ⟨i', hi', hfound⟩
      obtain rfl : i = i' := Option.some.inj (hiccid.symm.trans hi')
      exact hfound
    · intro hfound
      exact ⟨i, hiccid, hfound⟩
  rw [hquery]
  unfold SqliteStore.performUnder
  cases env.faults (.orderByIccid i) with
  | some e => exact iff_of_false (fun h => by cases h) fun h => by cases h.1
  | none =>
    show st.orderByIccid i = .ok (some o) ↔ _
    unfold SqliteStore.orderByIccid
    rw [SqliteStore.one_eq_ok, hfind]
    constructor
    · rintro ⟨hmem, hp, hleast⟩
      refine ⟨rfl, Table.row?_eq_some.mpr ⟨hmem, rfl⟩, hfiled.mp (of_decide_eq_true hp), ?_⟩
      intro r' hr' hlt
      exact of_decide_eq_false (hleast r' hr' hlt)
    · rintro ⟨_, hrow, hfiled', hfirst⟩
      refine ⟨Table.mem_of_row? hrow, decide_eq_true (hfiled.mpr hfiled'), ?_⟩
      intro r' hr' hlt
      exact decide_eq_false (hfirst r' hr' hlt)

/-! ## The law -/

/-- The order moved, if and only if the store took the write or had nothing to move. -/
theorem moved_iff {env : Env σ} {st : SqliteStore} {o : Order} {v : Notification}
    (hrow : st.orders.row? o.id = some o.toRow) :
    (st.after env.faults (.setState o.id v.verdict)).orders.row? o.id
        = some { o with state := v.verdict }.toRow
      ↔ env.faults (.setState o.id v.verdict) = none ∨ o.state = v.verdict := by
  rw [SqliteStore.row?_after env.faults _ hrow, Option.some_inj]
  cases hfault : env.faults (.setState o.id v.verdict) with
  | some e =>
    constructor
    · intro hsame
      exact .inr (congrArg Order.state (Order.toRow_injective hsame))
    · rintro (h | h)
      · cases h
      · rw [← h]
        rfl
  | none =>
    refine iff_of_true ?_ (.inl rfl)
    have hid : o.toRow.id = o.id := rfl
    rw [if_neg (by simp), StoreCall.onRow_setState, if_pos hid]
    rfl

section

variable {s : AppState σ} {env : Env σ} {o : Order} {raw c : Bytes} {i : Iccid}
  {v : Notification}

/-- Once `o` is matched, the result is checked against its certificate, and verifies. -/
theorem verifiedAs_of_matched (ho : HandedOutTo s.store o c i)
    (hraw : ReportsInstall env.library raw c i v) (hmatched : matchedOrder env s.store raw = some o) :
    verifiedAs env s.store raw = some v := by
  unfold verifiedAs
  rw [hmatched]
  show (env.library.verifyNotification o.euiccCert raw).toOption = _
  rw [ho.cert, hraw.verifies]
  rfl

/-- The row that was recorded names the order that was matched, so `o` was. -/
theorem first_of_credited (ho : HandedOutTo s.store o c i)
    (hraw : ReportsInstall env.library raw c i v)
    (hcredited : Credited s { s with store := notifiedStore env s.store raw } o v raw) :
    FirstOfIccid s.store o i ∧ StoreTakes env.faults o i v raw := by
  obtain ⟨n, hmeta, hiccid⟩ := hraw.metadata
  obtain ⟨⟨row, hrows, _, _, hid⟩, hmoved, _⟩ := hcredited
  obtain ⟨m, hm⟩ : ∃ m,
      (verifiedAs env s.store raw).or (env.library.notificationMetadata raw).toOption = some m := by
    rw [hmeta]
    cases verifiedAs env s.store raw with
    | some v => exact ⟨v, rfl⟩
    | none => exact ⟨n, rfl⟩
  dsimp only at hrows hmoved
  rw [notifications_notified hm, SqliteStore.rows_after_recordNotification] at hrows
  have hadded := List.append_cancel_left hrows
  split at hadded
  · rename_i hrecord
    obtain rfl := (List.cons.inj hadded).1
    obtain ⟨o', hmatched, hid'⟩ := Option.map_eq_some_iff.mp hid
    obtain ⟨hlookup, hrow', hfirst⟩ := (matchedOrder_eq_some hmeta hiccid).mp hmatched
    rw [hid', ho.row] at hrow'
    obtain rfl := Order.toRow_injective (Option.some.inj hrow')
    -- so it verified, and what was recorded is what it verified as
    have hv := verifiedAs_of_matched ho hraw hmatched
    rw [hv, hmatched] at hrecord
    rw [hv] at hm
    obtain rfl : v = m := Option.some.inj hm
    rw [orders_notified hmatched hv hraw.result] at hmoved
    exact ⟨hfirst, hlookup, hrecord, (moved_iff ho.row).mp hmoved⟩
  · cases hadded

theorem credited_of_first (ho : HandedOutTo s.store o c i)
    (hraw : ReportsInstall env.library raw c i v) (hfirst : FirstOfIccid s.store o i)
    (takes : StoreTakes env.faults o i v raw) :
    Credited s { s with store := notifiedStore env s.store raw } o v raw := by
  obtain ⟨n, hmeta, hiccid⟩ := hraw.metadata
  have hmatched : matchedOrder env s.store raw = some o :=
    (matchedOrder_eq_some hmeta hiccid).mpr ⟨takes.lookup, ho.row, hfirst⟩
  have hv := verifiedAs_of_matched ho hraw hmatched
  have hm : (verifiedAs env s.store raw).or (env.library.notificationMetadata raw).toOption
      = some v := by
    rw [hv]
    rfl
  have horders := orders_notified hmatched hv hraw.result
  refine ⟨⟨(toRecord (some v) v (some o) raw).toRow s.store.notifications.nextKey, ?_, rfl, rfl,
    rfl⟩, ?_, ?_⟩
  · dsimp only
    rw [notifications_notified hm, SqliteStore.rows_after_recordNotification, hv, hmatched,
      if_pos takes.record]
  · dsimp only
    rw [horders]
    exact (moved_iff ho.row).mpr takes.move
  · intro j hj
    dsimp only
    rw [horders]
    exact SqliteStore.row?_after_setState_of_ne _ hj

end

/-- **A result is credited to the order it reports exactly when that order is the first one
filed under its ICCID**, and the store takes the writes. Otherwise another order's certificate
is asked, or none, and what is recorded does not name `o`. -/
theorem credited_iff_first (config : ServerConfig) (s : AppState σ) (env : Env σ) {o : Order}
    {raw c : Bytes} {i : Iccid} {v : Notification} (ho : HandedOutTo s.store o c i)
    (hraw : ReportsInstall env.library raw c i v) :
    Credited s (serve (Command.program config) AppState.perform s (.handleNotification ⟨raw⟩)
      env).post o v raw ↔ FirstOfIccid s.store o i ∧ StoreTakes env.faults o i v raw := by
  have step := serves_serve (Command.program config) AppState.perform s
    (.handleNotification ⟨raw⟩) env
  obtain ⟨_, hpost⟩ := serving_handleNotification step rfl
  rw [hpost]
  constructor
  · intro hcredited
    exact first_of_credited ho hraw hcredited
  · rintro ⟨hfirst, takes⟩
    exact credited_of_first ho hraw hfirst takes

/-- The eUICC `A` downloads the first order. -/
def firstDownload : List (Command × Env Bytes) :=
  [(addProfile 7 "A", .echo 0), (initiate, .echo 1), (authenticate 1 [65], .echo 0),
   (download 1, .echo 0)]

/-- The same Profile is ordered again, and the eUICC `B` downloads it. -/
def secondDownload : List (Command × Env Bytes) :=
  firstDownload ++
    [(addProfile 7 "B", .echo 0), (initiate, .echo 2), (authenticate 2 [66], .echo 0),
     (download 2, .echo 0)]

/-- The order `smdp order add` makes of Profile 7, once `euicc` has downloaded it. -/
def downloadedOrder (id : Int) (matchingId eid : String) (cert : Bytes) : Order where
  id := id
  matchingId := matchingId
  iccid := ⟨List.replicate 10 7, rfl⟩
  upp := [7]
  metadata := [0xbf, 0x25, 0x0c, 0x5a, 0x0a] ++ List.replicate 10 7
  state := .downloaded
  eid := some eid
  euiccCert := some cert

/-- `signer` reports that Profile 7 is installed. -/
def installed (signer : UInt8) : Bytes := [signer, 1, 1] ++ List.replicate 10 7

/-- What it says. -/
def installedResult : Notification :=
  ⟨true, 1, 0, some ⟨List.replicate 10 7, rfl⟩, true⟩

theorem reportsInstall_echo (signer : UInt8) :
    ReportsInstall Library.echo (installed signer) [signer] ⟨List.replicate 10 7, rfl⟩
      installedResult where
  metadata := ⟨_, rfl, rfl⟩
  result := rfl
  verifies := by
    have hread : readEcho (installed signer)
        = .ok (signer, ⟨1, 1, 0, 1, ⟨List.replicate 10 7, rfl⟩, 1⟩) := rfl
    unfold Library.verifyNotification Library.echo
    simp only [hread, if_true]
    rfl
  only := by
    intro cert hcert
    have hread : readEcho (installed signer)
        = .ok (signer, ⟨1, 1, 0, 1, ⟨List.replicate 10 7, rfl⟩, 1⟩) := rfl
    unfold Library.verifyNotification Library.echo
    simp only [hread, if_neg hcert]
    exact ⟨_, rfl⟩

theorem credited_iff_first_A :
    Credited (echoedState firstDownload)
        (echoedNext firstDownload (.handleNotification ⟨installed 65⟩) (.echo 0)).post
        (downloadedOrder 1 "A" "A" [65]) installedResult (installed 65)
      ↔ FirstOfIccid (echoedState firstDownload).store (downloadedOrder 1 "A" "A" [65])
            ⟨List.replicate 10 7, rfl⟩
          ∧ StoreTakes StoreFaults.none (downloadedOrder 1 "A" "A" [65])
            ⟨List.replicate 10 7, rfl⟩ installedResult (installed 65) :=
  credited_iff_first _ _ _ ⟨rfl, rfl, rfl, rfl⟩ (reportsInstall_echo 65)

/-- The result of `B` is checked against the certificate of `A`, and credited to nobody. -/
theorem uncredited :
    ¬ ∀ (config : ServerConfig) (h : List (Step (AppState Bytes) (Event Bytes)))
        (s : AppState Bytes) (env : Env Bytes) (o : Order) (raw c : Bytes) (i : Iccid)
        (v : Notification), ServerRun config h s → env.faults = StoreFaults.none →
        HandedOutTo s.store o c i → ReportsInstall env.library raw c i v →
        Credited s (serve (Command.program config) AppState.perform s (.handleNotification ⟨raw⟩)
          env).post o v raw := by
  intro hall
  have hcredited := hall _ _ _ (.echo 0) (downloadedOrder 2 "B" "B" [66]) (installed 66) [66]
    ⟨List.replicate 10 7, rfl⟩ installedResult (run_echoed secondDownload) rfl
    ⟨rfl, rfl, rfl, rfl⟩ (reportsInstall_echo 66)
  obtain ⟨row, hrows, _, hverified, _⟩ := hcredited.recorded
  -- what was recorded did not verify
  have hrecorded : (echoedNext secondDownload (.handleNotification ⟨installed 66⟩)
      (.echo 0)).post.store.notifications.rows.map NotificationRow.verified = [0] := by decide
  have hbefore : (echoedState secondDownload).store.notifications.rows = [] := rfl
  rw [hbefore] at hrows
  have hone := (congrArg (List.map NotificationRow.verified) hrows).symm.trans hrecorded
  simp [hverified] at hone

end Smdp
