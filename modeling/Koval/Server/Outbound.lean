import Koval.Server.EndedJobs
import Koval.Server.Reports
import Koval.Server.Webhook
import Mathlib.Data.List.Perm.Subperm

/-!
This module contains the server together with the tasks that post to webhooks: each post tells what is
stored, is signed for who gets it, and is made at most three times.
-/

namespace Koval

open Webhook

structure Outbound where
  system : System
  -- in milliseconds
  now : Nat := 0
  -- handed over by workers
  pending : List Delivery := []
  senders : List Sender := []
  -- of earlier processes
  gone : List Sender := []

namespace Outbound

inductive Action where
  | system (action : Koval.Action)
  | wait (millis : Nat)
  | deliver (i : Nat) (clientBuilds : Bool)
  | send (i : Nat) (reply : Reply)

variable (ext : Webhook.Crates) (crates : Koval.Crates) (settings : Settings)

def step (action : Action) (outbound : Outbound) : Option Outbound :=
  match action with
  | .system action =>
    match outbound.system.step crates settings action with
    | none => none
    | some system =>
      if action.isRestart then
        some { outbound with
          system
          pending := []
          senders := []
          gone := outbound.senders ++ outbound.gone }
      else
        let handedOver := system.state.deliveries.length - outbound.system.state.deliveries.length
        some { outbound with
          system
          pending := outbound.pending ++ system.state.deliveries.take handedOver }
  | .wait millis => some { outbound with now := outbound.now + millis }
  | .deliver i clientBuilds =>
    match outbound.pending[i]? with
    | none => none
    | some (payload, webhooks) =>
      some { outbound with
        pending := outbound.pending.eraseIdx i
        senders := outbound.senders
          ++ Webhook.deliver ext clientBuilds outbound.now payload webhooks }
  | .send i reply =>
    match outbound.senders[i]? with
    | none => none
    | some sender =>
      match sender.run.step outbound.now reply with
      | none => none
      | some run => some { outbound with senders := outbound.senders.set i { sender with run } }

def Reachable (outbound : Outbound) : Prop :=
  ∃ boot system₀ actions,
    main crates settings boot (.empty settings) = some system₀
      ∧
    Machine.run (step ext crates settings) { system := system₀ } actions = some outbound

end Outbound

variable {ext : Webhook.Crates} {crates : Crates} {settings : Settings}
  {outbound outbound' : Outbound} {system system' : System}

theorem Reports.deliveries_suffix {reporting reporting' : Reporting} {s s' : State}
    (h : Reports reporting s reporting' s')
    : s.deliveries <:+ s'.deliveries := by
  cases h with
  | stay hdeliveries | ask _ hdeliveries | settle _ hdeliveries => exact ⟨[], hdeliveries.symm⟩
  | @deliver _ delivery _ _ hdeliveries => exact ⟨[delivery], hdeliveries.symm⟩

theorem System.Reachable.deliveries_suffix {action : Action} (h : system.Reachable crates settings)
    (hstep : system.step crates settings action = some system')
    : system.state.deliveries <:+ system'.state.deliveries := by
  cases System.stepsTo hstep with
  | request | recv | changeFiles => exact List.suffix_refl _
  | run hrun =>
    rcases h.exists_reporting with ⟨_, hreporting⟩
    rcases hreporting.reports.runThread Reporting.agrees_of_reports hrun with ⟨_, _, _, hreports, _⟩
    exact hreports.deliveries_suffix
  | restart => exact ⟨[], (deliveries_of_main hstep).symm⟩

def targets (delivery : Delivery) : List (WebhookPayload × String × String) :=
  delivery.snd.map fun webhook => (delivery.fst, webhook)

namespace Webhook

def Sender.target (sender : Sender) : WebhookPayload × String × String :=
  (sender.payload, sender.webhook)

/-- The task posts the payload, signed with the secret of the webhook, and tries again after the backoffs. -/
def Sender.Posts (ext : Webhook.Crates) (sender : Sender) : Prop :=
  ext.payloadToVec sender.payload = .ok sender.body
    ∧
  ∃ first, Errand.Retries Reply.isSuccess
    (post ext sender.webhook.fst sender.webhook.snd sender.body) first backoffs sender.run

theorem target_deliver (clientBuilds : Bool) (now : Nat) (delivery : Delivery)
    : ((deliver ext clientBuilds now delivery.fst delivery.snd).map Sender.target).Sublist
        (targets delivery) := by
  unfold deliver
  split
  . exact List.nil_sublist _
  . split
    . exact List.nil_sublist _
    . split
      . rw [List.map_map]
        exact List.Sublist.refl _
      . exact List.nil_sublist _

theorem posts_deliver {clientBuilds : Bool} {now : Nat} {delivery : Delivery} {sender : Sender}
    (h : sender ∈ deliver ext clientBuilds now delivery.fst delivery.snd)
    : sender.Posts ext := by
  unfold deliver at h
  split at h
  . contradiction
  . split at h
    . contradiction
    . next body hbody =>
      split at h
      . rcases List.mem_map.mp h with ⟨webhook, _, rfl⟩
        refine ⟨hbody, now, ?_⟩
        rw [attempt_eq_retry]
        exact Errand.retries_start _ _
      . contradiction

theorem Sender.Posts.step {sender : Sender} (h : sender.Posts ext) {now : Nat} {reply : Reply}
    {run : Errand.Run Post Reply} (hstep : sender.run.step now reply = some run)
    : { sender with run }.Posts ext := by
  rcases h with ⟨hbody, first, hretries⟩
  exact ⟨hbody, first, hretries.step hstep⟩

end Webhook

namespace Outbound

structure IsSound (ext : Webhook.Crates) (crates : Koval.Crates) (settings : Settings)
    (outbound : Outbound) : Prop where
  reachable : outbound.system.Reachable crates settings
  posts : ∀ sender ∈ outbound.senders ++ outbound.gone, sender.Posts ext
  once : ((outbound.senders ++ outbound.gone).map Sender.target
      ++ outbound.pending.flatMap targets).Subperm
    (outbound.system.state.deliveries.flatMap targets)

theorem IsSound.handOver (h : outbound.IsSound ext crates settings) {action : Koval.Action}
    (hstep : outbound.system.step crates settings action = some system')
    : IsSound ext crates settings
        (let handedOver := system'.state.deliveries.length - outbound.system.state.deliveries.length
         { outbound with
            system := system'
            pending := outbound.pending ++ system'.state.deliveries.take handedOver }) := by
  refine ⟨h.reachable.step hstep, h.posts, ?_⟩
  rcases h.reachable.deliveries_suffix hstep with ⟨new, hnew⟩
  dsimp only
  have htake : system'.state.deliveries.take
      (system'.state.deliveries.length - outbound.system.state.deliveries.length) = new := by
    rw [← hnew, List.length_append, Nat.add_sub_cancel, List.take_left]
  rw [htake, ← hnew, List.flatMap_append, List.flatMap_append, ← List.append_assoc]
  apply (List.perm_append_comm.subperm).trans
  exact (List.subperm_append_left _).mpr h.once

theorem IsSound.restart (h : outbound.IsSound ext crates settings) {action : Koval.Action}
    (hstep : outbound.system.step crates settings action = some system')
    : IsSound ext crates settings { outbound with
        system := system'
        pending := []
        senders := []
        gone := outbound.senders ++ outbound.gone } := by
  refine ⟨h.reachable.step hstep, h.posts, ?_⟩
  have hsuffix := h.reachable.deliveries_suffix hstep
  dsimp only
  rw [List.flatMap_nil, List.append_nil]
  apply (List.sublist_append_left _ _).subperm.trans
  exact h.once.trans (hsuffix.sublist.flatMap _).subperm

theorem IsSound.deliver (h : outbound.IsSound ext crates settings) {i : Nat} {delivery : Delivery}
    (hpending : outbound.pending[i]? = some delivery) (clientBuilds : Bool)
    : IsSound ext crates settings { outbound with
        pending := outbound.pending.eraseIdx i
        senders := outbound.senders
          ++ Webhook.deliver ext clientBuilds outbound.now delivery.fst delivery.snd } := by
  refine ⟨h.reachable, ?_, ?_⟩
  . intro sender hsender
    rw [List.append_assoc, List.mem_append, List.mem_append] at hsender
    rcases hsender with hsender | hsender | hsender
    . exact h.posts sender (List.mem_append_left _ hsender)
    . exact posts_deliver hsender
    . exact h.posts sender (List.mem_append_right _ hsender)
  . refine List.Subperm.trans ?_ h.once
    rcases List.getElem?_eq_some_iff.mp hpending with ⟨hlt, hget⟩
    have hperm : (delivery :: outbound.pending.eraseIdx i).Perm outbound.pending := by
      rw [← hget]
      exact List.getElem_cons_eraseIdx_perm hlt
    have htargets := @target_deliver ext clientBuilds outbound.now delivery
    have hpending : (targets delivery ++ (outbound.pending.eraseIdx i).flatMap targets).Perm
        (outbound.pending.flatMap targets) := by
      rw [← List.flatMap_cons]
      exact hperm.flatMap_right targets
    dsimp only
    rw [List.map_append, List.map_append, List.map_append, List.append_assoc, List.append_assoc,
      List.append_assoc]
    apply (List.Perm.append_left _ (List.perm_append_comm_assoc _ _ _)).subperm.trans
    rw [List.subperm_append_left, List.subperm_append_left]
    exact (htargets.append_right _).subperm.trans hpending.subperm

theorem IsSound.send (h : outbound.IsSound ext crates settings) {i : Nat} {sender : Sender}
    (hsender : outbound.senders[i]? = some sender) {reply : Reply} {run : Errand.Run Post Reply}
    (hrun : sender.run.step outbound.now reply = some run)
    : IsSound ext crates settings
        { outbound with senders := outbound.senders.set i { sender with run } } := by
  have hmem := List.mem_append_left outbound.gone (List.mem_of_getElem? hsender)
  refine ⟨h.reachable, ?_, ?_⟩
  . intro other hother
    rw [List.mem_append] at hother
    rcases hother with hother | hother
    . rcases List.mem_or_eq_of_mem_set hother with hother | rfl
      . exact h.posts other (List.mem_append_left _ hother)
      . exact (h.posts sender hmem).step hrun
    . exact h.posts other (List.mem_append_right _ hother)
  . have htarget : (outbound.senders.set i { sender with run }).map Sender.target
        = outbound.senders.map Sender.target := by
      rcases List.getElem?_eq_some_iff.mp hsender with ⟨hlt, hget⟩
      have hlt' : i < (outbound.senders.map Sender.target).length := by
        rw [List.length_map]
        exact hlt
      have hsame : Sender.target { sender with run }
          = (outbound.senders.map Sender.target).get ⟨i, hlt'⟩ := by
        rw [List.get_eq_getElem, List.getElem_map, hget]
        exact Eq.refl (Sender.target sender)
      rw [List.map_set, hsame]
      exact List.set_getElem_self hlt'
    have honce := h.once
    rw [List.map_append] at honce ⊢
    rw [htarget]
    exact honce

theorem IsSound.step (h : outbound.IsSound ext crates settings) {action : Action}
    (hstep : step ext crates settings action outbound = some outbound')
    : outbound'.IsSound ext crates settings := by
  cases action with
  | system action =>
    unfold Outbound.step at hstep
    dsimp only at hstep
    split at hstep
    . contradiction
    . next hsystem =>
      split at hstep
      . injection hstep with hstep
        rw [← hstep]
        exact h.restart hsystem
      . injection hstep with hstep
        rw [← hstep]
        exact h.handOver hsystem
  | wait millis =>
    injection hstep with hstep
    rw [← hstep]
    exact ⟨h.reachable, h.posts, h.once⟩
  | deliver i clientBuilds =>
    unfold Outbound.step at hstep
    dsimp only at hstep
    split at hstep
    . contradiction
    . next hpending =>
      injection hstep with hstep
      rw [← hstep]
      exact h.deliver hpending clientBuilds
  | send i reply =>
    unfold Outbound.step at hstep
    dsimp only at hstep
    split at hstep
    . contradiction
    . next hsender =>
      split at hstep
      . contradiction
      . next hrun =>
        injection hstep with hstep
        rw [← hstep]
        exact h.send hsender hrun

theorem Reachable.isSound (h : outbound.Reachable ext crates settings)
    : outbound.IsSound ext crates settings := by
  rcases h with ⟨boot, system₀, actions, hmain, hrun⟩
  apply Machine.invariant_of_run (I := IsSound ext crates settings) _ _ hrun
  . intro action _ outbound outbound' h hstep
    exact h.step hstep
  . refine ⟨⟨boot, system₀, [], hmain, rfl⟩, ?_, ?_⟩
    . intro sender hsender
      contradiction
    . exact List.nil_subperm

/--
Whatever fails, each post ever made tells what is stored of an ended job, and is signed with the secret
of a webhook of the token that has submitted it. It is made at most three times, after the backoffs and
until it succeeds, and for no delivery by more than one task for each webhook.
-/
theorem Reachable.posts_tell (h : outbound.Reachable ext crates settings)
    : (∀ sender ∈ outbound.senders ++ outbound.gone,
        (∃ row,
          outbound.system.state.db.TellsOf sender.payload row
            ∧
          outbound.system.state.db.HasWebhook row.tokenId sender.webhook)
          ∧
        ext.payloadToVec sender.payload = .ok sender.body
          ∧
        Errand.IsRetried Reply.isSuccess
          (post ext sender.webhook.fst sender.webhook.snd sender.body) backoffs sender.run)
        ∧
      ((outbound.senders ++ outbound.gone).map Sender.target).Subperm
        (outbound.system.state.deliveries.flatMap targets) := by
  have hsound := h.isSound
  have honce := (List.sublist_append_left _ _).subperm.trans hsound.once
  refine ⟨?_, honce⟩
  intro sender hsender
  rcases hsound.posts sender hsender with ⟨hbody, first, hretries⟩
  refine ⟨?_, hbody, hretries.isRetried⟩
  have hmem := honce.subset (List.mem_map_of_mem hsender)
  rcases List.mem_flatMap.mp hmem with ⟨delivery, hdelivery, htarget⟩
  unfold targets at htarget
  rcases List.mem_map.mp htarget with ⟨webhook, hwebhook, heq⟩
  injection heq with hpayload hsame
  rcases hsound.reachable.tells hdelivery with ⟨row, htells, hwebhooks⟩
  rw [← hpayload, ← hsame]
  exact ⟨row, htells, hwebhooks webhook hwebhook⟩

end Outbound

namespace Samples

def payload : WebhookPayload := {
  jobId := "4c1e"
  status := .done
  finishedAt := some "2026-05-17T16:53:03+00:00"
  project := "https://github.com/a/b"
  sha256 := some "ee98dc6af27a9f1c8cc4aaa2fd05b5f6e7c98f51390253a5263b0d096c3510fe"
}

def payloadText : List UInt8 :=
  asBytes ("\x7b\"job_id\":\"4c1e\",\"status\":\"done\","
    ++ "\"finished_at\":\"2026-05-17T16:53:03+00:00\",\"project\":\"https://github.com/a/b\","
    ++ "\"sha256\":\"ee98dc6af27a9f1c8cc4aaa2fd05b5f6e7c98f51390253a5263b0d096c3510fe\"\x7d")

def webhookCrates : Webhook.Crates where
  hmacSha256 key text :=
    if key = asBytes "7f0c3a" ∧ text = payloadText then
      some [
        63, 152, 169, 150, 136, 155, 167, 212, 253, 134, 14, 14, 116, 137, 102, 139,
        221, 185, 190, 84, 51, 148, 188, 243, 225, 50, 56, 164, 150, 63, 163, 6
      ]
    else
      none
  payloadToVec payload' := if payload' = payload then .ok payloadText else .error "no sample"

-- The receiver fails, cannot be reached, and takes the third post.
def posted : List Outbound.Action :=
  announced.map .system
    ++ [.deliver 0 true, .send 0 .error, .send 0 (.status 500)]
    ++ [.wait 2000, .send 0 .error, .send 0 .error, .send 0 .error]
    ++ [.wait 5000, .send 0 .error, .send 0 .error, .send 0 (.status 204)]

end Samples

theorem Outbound.Reachable.posts_tell_thrice
    : ∃ outbound : Outbound, ∃ sender ∈ outbound.senders,
        (Errand.sends sender.run.events).map (·.fst) = [7000, 2000, 0]
          ∧
        sender.payload = Samples.payload
          ∧
        Errand.IsRetried Reply.isSuccess
          (post Samples.webhookCrates sender.webhook.fst sender.webhook.snd sender.body) backoffs
          sender.run := by
  have hruns : (main Samples.github.crates Samples.settings Samples.boot
        (.empty Samples.settings)).any fun system₀ =>
      (Machine.run (Outbound.step Samples.webhookCrates Samples.github.crates Samples.settings)
          { system := system₀ } Samples.posted).any fun outbound =>
        outbound.senders.any fun sender =>
          (Errand.sends sender.run.events).map (·.fst) = [7000, 2000, 0]
            ∧ sender.payload = Samples.payload := by
    decide +kernel
  rw [Option.any_eq_true] at hruns
  rcases hruns with ⟨system₀, hmain, hruns⟩
  rw [Option.any_eq_true] at hruns
  rcases hruns with ⟨outbound, hrun, hsender⟩
  rw [List.any_eq_true] at hsender
  rcases hsender with ⟨sender, hsender, htimes⟩
  have ⟨htimes, hpayload⟩ := of_decide_eq_true htimes
  have hreachable : outbound.Reachable Samples.webhookCrates Samples.github.crates Samples.settings :=
    ⟨Samples.boot, system₀, Samples.posted, hmain, hrun⟩
  have ⟨_, _, hretried⟩ := hreachable.posts_tell.left sender (List.mem_append_left _ hsender)
  exact ⟨outbound, sender, hsender, htimes, hpayload, hretried⟩

end Koval
