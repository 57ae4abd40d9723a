import SocialApp.Library.Machine
import SocialApp.Library.Component
import SocialApp.Library.Outlet
import SocialApp.Library.Table
import SocialApp.Library.KeyedMap
import SocialApp.Library.OptionSet
import SocialApp.Foundation.Text
import SocialApp.Foundation.Json
import SocialApp.Foundation.Schema
import SocialApp.Login.Session
import SocialApp.Login.TabBar
import SocialApp.Login.Fragment
import SocialApp.Login.History
import SocialApp.Login.Scope
import SocialApp.Login.Firebase
import SocialApp.Realm.Objects
import SocialApp.Realm.Manager
import SocialApp.Realm.Maps
import SocialApp.Realm.Calls
import SocialApp.Realm.Decoding
import SocialApp.Network.FriendsRefresh
import SocialApp.Network.AsyncOperation
import SocialApp.Network.Observers
import SocialApp.Network.Avatars
import SocialApp.Network.InFlight
import SocialApp.Photos.Owners
import SocialApp.Photos.Downloads
import SocialApp.Photos.Refresh
import SocialApp.Network.Pipeline
import SocialApp.Network.Turns
import SocialApp.Network.Requests
import SocialApp.Network.GroupsRefresh
import SocialApp.Screens.SearchList
import SocialApp.Screens.Coherence
import SocialApp.Screens.TableUpdates
import SocialApp.Screens.References
import SocialApp.Screens.Cells
import SocialApp.Screens.Reuse
import SocialApp.Photos.Gallery
import SocialApp.Newsfeed.Post
import SocialApp.Newsfeed.Feed
import SocialApp.Newsfeed.Screen
import SocialApp.Newsfeed.Grammar
import SocialApp.Newsfeed.Media
import SocialApp.Newsfeed.Likes
import SocialApp.Newsfeed.Balance
import SocialApp.Newsfeed.Passes
import SocialApp.Newsfeed.History
import SocialApp.Newsfeed.MediaCells
import SocialApp.Accounts.Device
import SocialApp.Accounts.Isolation
import SocialApp.Accounts.Consumers
import SocialApp.Accounts.Presence
