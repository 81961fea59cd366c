import RondeDesFacs.Base.Script
import RondeDesFacs.Library.SqlLexer
import RondeDesFacs.Library.Paths
import RondeDesFacs.Library.Tally
import RondeDesFacs.Library.NameValues
import RondeDesFacs.Library.UrlQuery
import RondeDesFacs.Library.Calendar
import RondeDesFacs.Library.Cursor
import RondeDesFacs.Bdd.LapAccounting
import RondeDesFacs.Bdd.Distributions
import RondeDesFacs.Bdd.TopRunner
import RondeDesFacs.Servlet.LapDistribution
import RondeDesFacs.Servlet.NullSafety
import RondeDesFacs.Servlet.Alignment
import RondeDesFacs.Servlet.LDAP
import RondeDesFacs.Servlet.Branch
import RondeDesFacs.Card.Identity
import RondeDesFacs.Card.OwnResponse
import RondeDesFacs.Card.ClientWebS
import RondeDesFacs.Card.Handles
import RondeDesFacs.Card.Statements
import RondeDesFacs.Card.Literals
import RondeDesFacs.Card.Outcomes
import RondeDesFacs.Card.Moteur
import RondeDesFacs.Card.Owner
import RondeDesFacs.Web.Php
import RondeDesFacs.Web.Connexion
import RondeDesFacs.Web.SessionOwner
import RondeDesFacs.Web.Credentials
import RondeDesFacs.Web.Pictures
import RondeDesFacs.Web.Failure
import RondeDesFacs.Web.UploadPaths
import RondeDesFacs.Web.FormLogin
import RondeDesFacs.Page.GenerateKPI
import RondeDesFacs.Page.SquareZone
import RondeDesFacs.Page.Isolation
import RondeDesFacs.Page.Answers
import RondeDesFacs.Page.Arrows
import RondeDesFacs.Page.ArrowCopies
import RondeDesFacs.Page.ArrowRuns
import RondeDesFacs.Page.Template
import RondeDesFacs.Page.DataManager
import RondeDesFacs.Page.Events
import RondeDesFacs.Page.Tags
import RondeDesFacs.Page.Groups
import RondeDesFacs.Page.Codes
import RondeDesFacs.Page.MapTotals
import RondeDesFacs.Page.Totals
import RondeDesFacs.Page.Columns
import RondeDesFacs.Page.Adresses
import RondeDesFacs.Page.QueryBuilder
import RondeDesFacs.Page.Age
import RondeDesFacs.Page.TopperZone
import RondeDesFacs.Page.ChangeTopper
import RondeDesFacs.Page.TopperDisplay
import RondeDesFacs.Page.Points
import RondeDesFacs.Page.AttachedChart
import RondeDesFacs.Page.DataPage
import RondeDesFacs.Page.Frozen
import RondeDesFacs.Card.Readers
import RondeDesFacs.Card.Waiting
import RondeDesFacs.Card.Bounds
import RondeDesFacs.Card.Recording
import RondeDesFacs.Course.Visitors
import RondeDesFacs.Course.Board
import RondeDesFacs.Course.Distribution
import RondeDesFacs.Course.Requests
