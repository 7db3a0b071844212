import Rollout.Deploy.Basic
import Rollout.Fleet.Care

/-!
# Courses of a deployment

Every way in which a deployment can go: `Deployment.Goes` are its steps, and `Deploying` is any
number of them, with what happened on the way. The pool is looked for, and created, without a limit
of time.
-/

namespace Rollout

/-- What is seen of a deployment whose rollout has just begun. -/
def Deploy.happenings (m : Moment) : Deploy → List Happening
  | running _ run => run.happenings m
  | _ => []

/-- What there is between two steps of a deployment. -/
structure Deployment (σ : Type) where
  around : σ
  deploy : Deploy

/-- The steps of the deployment of a configuration within a context. -/
inductive Deployment.Goes {σ : Type} (env : Surroundings σ) (c : Config) (ctx : Context) :
    Deployment σ → List Happening → Deployment σ → Prop
  | later {s s' : σ} {d : Deploy} : env.passes s s' → Goes env c ctx ⟨s, d⟩ [] ⟨s', d⟩
  | ensured {s s' : σ} {e : Event (Deploy.ensureCall c)} :
    env.ends s .background (Deploy.ensureCall c) e s' →
      Goes env c ctx ⟨s, .ensuring⟩
        ((Deploy.ensured c ctx (env.moment s') e).happenings (env.moment s'))
        ⟨s', Deploy.ensured c ctx (env.moment s') e⟩
  | created {s s' : σ} {e : Event (Deploy.createCall c)} :
    env.ends s .background (Deploy.createCall c) e s' →
      Goes env c ctx ⟨s, .creating⟩
        ((Deploy.created c ctx (env.moment s') e).happenings (env.moment s'))
        ⟨s', Deploy.created c ctx (env.moment s') e⟩
  | acts {s s' : σ} {fleet fleet' : Fleet} {run run' : Run} {new : List Happening} :
    Scene.Acts env ctx ⟨s, fleet, .rollout run⟩ new ⟨s', fleet', .rollout run'⟩ →
      Goes env c ctx ⟨s, .running fleet run⟩ new
        ⟨s', .ofRun ctx (env.moment s') (fleet', run')⟩
  | hears {s s' : σ} {fleet fleet' : Fleet} {run run' : Run} {new : List Happening} :
    Scene.Hears env ctx ⟨s, fleet, .rollout run⟩ new ⟨s', fleet', .rollout run'⟩ →
      Goes env c ctx ⟨s, .running fleet run⟩ new
        ⟨s', .ofRun ctx (env.moment s') (fleet', run')⟩
  | cleans {s s' : σ} {fleet fleet' : Fleet} {cl cl' : Cleanup} {new : List Happening} :
    Cleaning.Goes env ctx ⟨s, fleet, cl⟩ new ⟨s', fleet', cl'⟩ →
      Goes env c ctx ⟨s, .cleaning fleet cl⟩ new ⟨s', .ofCleanup fleet' cl'⟩

/-- What becomes of a deployment, with what happened on the way. -/
inductive Deploying {σ : Type} (env : Surroundings σ) (c : Config) (ctx : Context)
    (x : Deployment σ) : List Happening → Deployment σ → Prop
  | here : Deploying env c ctx x [] x
  | step {hs new : List Happening} {y z : Deployment σ} : Deploying env c ctx x hs y →
    y.Goes env c ctx new z → Deploying env c ctx x (hs ++ new) z

end Rollout
