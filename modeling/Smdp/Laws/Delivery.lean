import Smdp.Laws.Account
import Smdp.Laws.Handling

/-!
# Smdp — what a device is handed

An answer that carries a package, seen from the device's side. The package is what the library
built for that very request, and behind it stands all that has to (`package_delivered`).
-/

namespace Smdp

open Interaction

variable {σ : Type} {config : ServerConfig} {p : ServerPool σ}
  {h : List (Step (ServerPool σ) (ServerLifeEvent σ))}

/-- **A package that is delivered was built for the request that gets it**, from the UPP of a
Profile that is on file, on the session the request names. That session was opened and then accepted
an eUICC for this Profile, in the life of one process, and no package was built on it before. The
call is of the life that still goes on: thread numbers begin anew in each. -/
theorem package_delivered (run : LifeRun config h p) {t : Nat}
    {req : GetBoundProfilePackageRequest} {r : Response} {b : GetBoundProfilePackageResponse}
    (ht : p.threads[t]? = some ⟨.getBoundProfilePackage req, .ret (.http r)⟩)
    (hb : r.body = .getBoundProfilePackage b) :
    b.transactionId = req.transactionId
      ∧ ∃ before x after env session session' upp otskDp metadata, h = before ++ x :: after
        ∧ x.label = .alive (.called t (.getBoundProfilePackage req) env
            ⟨.rsp (.dpGetBoundProfilePackage session req.prepareDownloadResponse upp otskDp),
              (session', .ok b.boundProfilePackage)⟩)
        ∧ (∀ y ∈ after, y.label ≠ .crashed)
        ∧ Sells p.shared.store metadata upp
        ∧ Earned (shown objectEvent before) req.transactionId metadata := by
  have hrests : r.body.RestsOn config (.getBoundProfilePackage req) (Machine.callsInLife t h) :=
    answers_rest run ht
  rw [hb] at hrests
  obtain ⟨_, o, entry, hreq, hbuilds, _, _, hid⟩ := hrests
  cases hreq
  obtain ⟨otskDp, session', _, hbuilt⟩ := hbuilds.built
  obtain ⟨before, x, after, env, hh, hx, hlife⟩ := Machine.Run.mem_callsInLife run ht hbuilt
  -- the call is one on the object of the session
  have hshown : shown objectEvent h = shown objectEvent before
      ++ .packaged req.transactionId entry.session o.upp session' true :: shown objectEvent after := by
    rw [hh, shown_append]
    congr 1
    unfold shown
    rw [List.filterMap_cons, hx]
    rfl
  obtain ⟨g, objects, hg, hlabels, _⟩ := objects_of_lives run
  obtain ⟨metadata, hsells, hearned⟩ := packaged_of_run hg (hlabels.trans hshown)
  exact ⟨hid, before, x, after, env, entry.session, session', o.upp, otskDp, metadata, hh, hx,
    hlife, hsells, hearned⟩

theorem package_delivered_downloadRestarted :
    ∃ before x after metadata, downloadRestarted = before ++ x :: after
      ∧ Earned (shown objectEvent before) (List.replicate 16 2) metadata := by
  have ht : (restartedPool beforeRestart afterRestart).threads[2]?
      = some ⟨download 2, .ret (.http (okJson (.getBoundProfilePackage
          ⟨ResponseHeader.success, List.replicate 16 2, [7]⟩)))⟩ := rfl
  obtain ⟨_, before, x, after, _, _, _, _, _, metadata, hh, _, _, _, hearned⟩ :=
    package_delivered (run_restarted beforeRestart afterRestart) ht rfl
  exact ⟨before, x, after, metadata, hh, hearned⟩

end Smdp
