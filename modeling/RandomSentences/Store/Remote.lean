import RandomSentences.Config.Basic
import RandomSentences.Store.Basic

/-!
# Stores on a server

A remote store keeps its word sets on a server, which its configuration names. This library has
no connection to any server, so every question to such a store fails, and so does every change
that would have to be sent. Adding no words needs no connection.
-/

namespace RandomSentences

/-- A store on a server. -/
structure RemoteStore where
  config : StoreConfig

namespace RemoteStore

/-- The failure of every command that needs a connection. -/
def unreachable : StoreError :=
  .unavailable "Network is unreachable (os error 101)"

/-- Adds words to a set. The result is how many were new. -/
def addWords (_ : RemoteStore) (_key : String) : (words : List String) → Except StoreError Nat
  | [] => .ok 0
  | _ :: _ => .error unreachable

/-- Removes a set. The result is whether there was one. -/
def clear (_ : RemoteStore) (_key : String) : Except StoreError Bool :=
  .error unreachable

instance : WordStore RemoteStore where
  allMembers _ := throw unreachable
  randomMember _ := throw unreachable

end RemoteStore

end RandomSentences
